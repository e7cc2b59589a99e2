import SignalBridge.Proofs.Registry.Heirs
import SignalBridge.Proofs.Source.Pattern

namespace SignalBridge

/-- A constructor or destructor of the class `library` under the name of the class `heir`. -/
def Member.rehomed (library heir : String) (m : Member) : Member :=
  let name := if m.name = library then heir else "~" ++ heir
  { m with name := name, fullName := qualify heir name }

namespace Registry

variable {r : Registry} {c library : MetaClass} {ms : List Member} {m : Member}
  {owner heir : String}

/-- Class names are identifiers; the members of declared classes are signals and slots that are
called neither like their class nor like its destructor; the constructors and destructors of a
library class are. All members are qualified by their class. -/
structure Conventional (r : Registry) : Prop where
  name : ∀ c ∈ r.classes, Source.Pattern.ident.Matches c.name.toList
  declared : ∀ c ∈ r.declared, ∀ m ∈ c.members,
    (m.category = .signal ∨ m.category = .slot) ∧ m.fullName = qualify c.name m.name ∧
      m.name ≠ c.name ∧ m.name ≠ "~" ++ c.name
  library : ∀ c ∈ r.classes, c.isDeclared = false → ∀ m ∈ c.members, m.category.isInherited →
    m.fullName = qualify c.name m.name ∧ (m.name = c.name ∨ m.name = "~" ++ c.name)

/-- The base chain of `c` goes through declared classes to the class `library`, which is none. -/
inductive HeirOf (r : Registry) (library : MetaClass) : MetaClass → Prop where
  | direct {c : MetaClass} (hc : c ∈ r.declared) (hb : c.base = some library.name)
      (hm : library ∈ r.classes) (hl : library.isDeclared = false) : HeirOf r library c
  | through {c base : MetaClass} (hc : c ∈ r.declared) (hb : c.base = some base.name)
      (h : HeirOf r library base) : HeirOf r library c

theorem HeirOf.mem_declared (h : r.HeirOf library c) : c ∈ r.declared := by
  cases h with
  | direct hc => exact hc
  | through hc => exact hc

/-- The first member of each full name. -/
def firstOfEach : List Member → List Member
  | [] => []
  | m :: ms => m :: (firstOfEach ms).filter (·.fullName ≠ m.fullName)

/-- The constructors and destructors of a class, in its order. -/
def handedDown (c : MetaClass) : List Member :=
  c.members.filter (·.category.isInherited)

theorem mem_of_mem_firstOfEach (h : m ∈ firstOfEach ms) : m ∈ ms := by
  induction ms with
  | nil => simp [firstOfEach] at h
  | cons n ms ih =>
    rcases List.mem_cons.mp h with rfl | h
    · exact List.mem_cons_self
    · exact List.mem_cons_of_mem _ (ih (List.mem_of_mem_filter h))

theorem nodup_firstOfEach : ((firstOfEach ms).map Member.fullName).Nodup := by
  induction ms with
  | nil => exact List.nodup_nil
  | cons m ms ih =>
    rw [firstOfEach, List.map_cons, List.nodup_cons]
    refine ⟨?_, ih.sublist (List.filter_sublist.map _)⟩
    simp

theorem firstOfEach_of_nodup (h : (ms.map Member.fullName).Nodup) : firstOfEach ms = ms := by
  induction ms with
  | nil => rfl
  | cons m ms ih =>
    rw [List.map_cons, List.nodup_cons] at h
    rw [firstOfEach, ih h.2, List.filter_eq_self.mpr]
    intro n hn
    have : n.fullName ≠ m.fullName := fun he => h.1 (he ▸ List.mem_map_of_mem hn)
    simpa using this

theorem fresh_eq_filter {known : List String} :
    fresh known ms = (firstOfEach ms).filter fun m => m.fullName ∉ known := by
  induction ms generalizing known with
  | nil => rfl
  | cons m ms ih =>
    rw [firstOfEach, fresh]
    by_cases hm : m.fullName ∈ known
    · rw [if_pos hm, List.filter_cons_of_neg (by simpa using hm), List.filter_filter, ih]
      apply List.filter_congr
      intro n _
      by_cases he : n.fullName = m.fullName <;> simp [he, hm]
    · rw [if_neg hm, List.filter_cons_of_pos (by simpa using hm), List.filter_filter, ih]
      congr 1
      apply List.filter_congr
      intro n _
      simp [Bool.and_comm]

theorem firstOfEach_map {f : Member → Member} (h : ∀ a ∈ ms, ∀ b ∈ ms,
    (f a).fullName = (f b).fullName ↔ a.fullName = b.fullName) :
    firstOfEach (ms.map f) = (firstOfEach ms).map f := by
  induction ms with
  | nil => rfl
  | cons m ms ih =>
    rw [List.map_cons, firstOfEach, firstOfEach, List.map_cons,
      ih fun a ha b hb => h a (List.mem_cons_of_mem _ ha) b (List.mem_cons_of_mem _ hb),
      List.filter_map]
    congr 2
    apply List.filter_congr
    intro a ha
    have := h a (List.mem_cons_of_mem _ (mem_of_mem_firstOfEach ha)) m List.mem_cons_self
    simp [this]

section Names

theorem qualify_inj {x y : String} : qualify owner x = qualify owner y ↔ x = y := by
  simp [qualify, ← String.toList_inj]

theorem ne_tilde (name : String) : "~" ++ name ≠ name := by
  intro h
  have := congrArg (List.length ∘ String.toList) h
  simp at this

theorem ownerText_append {name rest : List Char} (h : ':' ∉ name) :
    Member.ownerText (name ++ ':' :: ':' :: rest) = name := by
  induction name with
  | nil => rfl
  | cons a name ih =>
    have ha : a ≠ ':' := fun he => h (he ▸ List.mem_cons_self)
    rw [List.cons_append, Member.ownerText.eq_3 a _ fun _ he => absurd he ha,
      ih fun hm => h (List.mem_cons_of_mem _ hm)]

theorem ownerName_of_qualify (h : ':' ∉ owner.toList) (hm : m.fullName = qualify owner m.name) :
    m.ownerName = owner := by
  have he : m.fullName.toList = owner.toList ++ ':' :: ':' :: m.name.toList := by
    simp [hm, qualify]
  rw [Member.ownerName, he, ownerText_append h, String.ofList_toList]

theorem not_mem_of_ident {name : List Char} (h : Source.Pattern.ident.Matches name) :
    ':' ∉ name := by
  obtain ⟨a, rest, rfl, ha, hrest⟩ := h
  intro hm
  rcases List.mem_cons.mp hm with rfl | hm
  · revert ha
    decide +kernel
  · have := hrest _ hm
    revert this
    decide +kernel

theorem renamedFor_eq_rehomed (h : ':' ∉ owner.toList) (hq : m.fullName = qualify owner m.name)
    (hn : m.name = owner ∨ m.name = "~" ++ owner) : m.renamedFor heir = m.rehomed owner heir := by
  have hname : m.nameFor heir = if m.name = owner then heir else "~" ++ heir := by
    rw [Member.nameFor, ownerName_of_qualify h hq]
    by_cases he : m.name = owner
    · rw [if_pos he, if_pos he]
    · rw [if_neg he, if_neg he, if_pos (hn.resolve_left he)]
  rw [Member.renamedFor, Member.rehomed, hname]

/-- A member that came to `owner` from a library goes on as it would have come from there. -/
theorem renamedFor_rehomed {origin : String} (h : ':' ∉ owner.toList) :
    (m.rehomed origin owner).renamedFor heir = m.rehomed origin heir := by
  have hn : (m.rehomed origin owner).name = owner ∨
      (m.rehomed origin owner).name = "~" ++ owner := by
    simp only [Member.rehomed]
    split
    · exact .inl rfl
    · exact .inr rfl
  rw [renamedFor_eq_rehomed h rfl hn]
  by_cases he : m.name = origin
  · simp [Member.rehomed, he]
  · simp [Member.rehomed, he]

theorem fullName_rehomed_inj {a b : Member} {origin : String} :
    (a.rehomed origin heir).fullName = (b.rehomed origin heir).fullName ↔
      (a.name = origin ↔ b.name = origin) := by
  simp only [Member.rehomed, qualify_inj]
  by_cases ha : a.name = origin <;> by_cases hb : b.name = origin <;>
    simp [ha, hb, (ne_tilde heir).symm]

end Names

namespace Conventional

theorem plain (h : r.Conventional) : r.Plain := by
  intro c hc m hm
  obtain ⟨hk | hk, -⟩ := h.declared c hc m hm <;> simp [hk, Category.isInherited]

theorem not_mem_name (h : r.Conventional) (hc : c ∈ r.classes) : ':' ∉ c.name.toList :=
  not_mem_of_ident (h.name c hc)

/-- None of its own members stands in the way of what a class is handed down. -/
theorem taken_eq (h : r.Conventional) (hc : c ∈ r.declared)
    (hr : ∀ m ∈ ms, ∃ origin n, m.renamedFor c.name = Member.rehomed origin c.name n) :
    taken c ms = firstOfEach (ms.map (·.renamedFor c.name)) := by
  rw [taken, fresh_eq_filter, List.filter_eq_self]
  intro m hm
  obtain ⟨n, hn, rfl⟩ := List.mem_map.mp (mem_of_mem_firstOfEach hm)
  obtain ⟨origin, n', he⟩ := hr n hn
  simp only [he, decide_eq_true_eq, List.mem_map, not_exists, not_and]
  intro own hown he
  obtain ⟨-, hq, hne, hnt⟩ := h.declared c hc own hown
  rw [hq] at he
  simp only [Member.rehomed, qualify_inj] at he
  split at he
  · exact hne he
  · exact hnt he

theorem inherits_of_heirOf (h : r.Conventional) (hh : r.HeirOf library c) :
    Inherits r c (firstOfEach ((handedDown library).map (·.rehomed library.name c.name))) := by
  induction hh with
  | @direct c hc hb hm hl =>
    have hr : ∀ m ∈ handedDown library,
        m.renamedFor c.name = m.rehomed library.name c.name := by
      intro m hmem
      obtain ⟨hmem, hi⟩ := List.mem_filter.mp hmem
      obtain ⟨hq, hn⟩ := h.library _ hm hl m hmem hi
      exact renamedFor_eq_rehomed (h.not_mem_name hm) hq hn
    rw [← List.map_congr_left hr, ← h.taken_eq hc fun m hm => ⟨_, m, hr m hm⟩]
    exact .library (by rw [hb]; exact find?_of_mem hm) hl
  | @through c base hc hb hh ih =>
    obtain ⟨hm, hd⟩ := mem_declared_iff.mp hh.mem_declared
    have hcolon := h.not_mem_name hm
    generalize handedDown library = down at ih ⊢
    have hmap : (firstOfEach (down.map (·.rehomed library.name base.name))).map
        (·.renamedFor c.name) = firstOfEach (down.map (·.rehomed library.name c.name)) := by
      rw [← firstOfEach_map, List.map_map]
      · congr 1
        exact List.map_congr_left fun m _ => renamedFor_rehomed hcolon
      · intro a ha b hb
        obtain ⟨a, -, rfl⟩ := List.mem_map.mp ha
        obtain ⟨b, -, rfl⟩ := List.mem_map.mp hb
        rw [renamedFor_rehomed hcolon, renamedFor_rehomed hcolon, fullName_rehomed_inj,
          fullName_rehomed_inj]
    have htaken : taken c (firstOfEach (down.map (·.rehomed library.name base.name))) =
        firstOfEach (down.map (·.rehomed library.name c.name)) := by
      rw [h.taken_eq hc, hmap, firstOfEach_of_nodup nodup_firstOfEach]
      intro m hm
      obtain ⟨n, -, rfl⟩ := List.mem_map.mp (mem_of_mem_firstOfEach hm)
      exact ⟨_, n, renamedFor_rehomed hcolon⟩
    rw [← htaken]
    exact .declared (by rw [hb]; exact find?_of_mem hm) hd ih

end Conventional

theorem heirOf_of_inherits (h : Inherits r c ms) (hc : c ∈ r.declared) :
    ∃ library, r.HeirOf library c := by
  induction h with
  | @library c base hb hl =>
    obtain ⟨name, hn, hf⟩ := Option.bind_eq_some_iff.mp hb
    obtain ⟨hm, rfl⟩ := find?_eq_some_iff.mp hf
    exact ⟨base, .direct hc hn hm hl⟩
  | @declared c base ms hb hd _ ih =>
    obtain ⟨name, hn, hf⟩ := Option.bind_eq_some_iff.mp hb
    obtain ⟨hm, rfl⟩ := find?_eq_some_iff.mp hf
    obtain ⟨library, hh⟩ := ih (mem_declared_iff.mpr ⟨hm, hd⟩)
    exact ⟨library, .through hc hn hh⟩

/-- Propagation in closed form. An heir of a library class keeps its members and gains the
constructors and destructors of that class under its own name, the first of each full name; every
other class stays as it is, and so does the order. Another order of the same classes changes no
class. -/
theorem propagate_closedForm (h : r.Conventional) :
    r.propagate.registry.names = r.names ∧
    (∀ library c, r.HeirOf library c → r.propagate.registry.find? c.name = some { c with
      members := c.members ++
        firstOfEach ((handedDown library).map (·.rehomed library.name c.name)) }) ∧
    (∀ c ∈ r.classes, (∀ library, ¬ r.HeirOf library c) →
      r.propagate.registry.find? c.name = some c) ∧
    ∀ r' : Registry, r'.classes.Perm r.classes → ∀ name,
      r'.propagate.registry.find? name = r.propagate.registry.find? name := by
  obtain ⟨gain, he, hg, hi⟩ := exists_gain h.plain
  have hfind : ∀ c ∈ r.classes, r.propagate.registry.find? c.name =
      some { c with members := c.members ++ gain c } := by
    intro c hc
    rw [he, find?_withGain, find?_of_mem hc]
    rfl
  refine ⟨by rw [he]; exact names_mapMembers r _, ?_, ?_, ?_⟩
  · intro library c hh
    rw [hfind c (mem_declared_iff.mp hh.mem_declared).1,
      hi c hh.mem_declared _ (h.inherits_of_heirOf hh)]
  · intro c hc hn
    rw [hfind c hc]
    rcases hg c with hgain | ⟨hd, hgain⟩
    · rw [hgain, List.append_nil]
    · obtain ⟨library, hh⟩ := heirOf_of_inherits hgain (mem_declared_iff.mpr ⟨hc, hd⟩)
      exact absurd hh (hn library)
  · intro r' hp name
    exact find?_perm (propagate_perm hp.symm h.plain).1.symm name

/-- A member without parameters. -/
def bareMember (category : Category) (owner name : String) : Member :=
  ⟨name, qualify owner name, category, "void", none, [], .nonvirtual⟩

def objectClass : MetaClass :=
  ⟨rootClass, .publicAccess, "core", none,
    [bareMember .constructor rootClass rootClass, bareMember .signal rootClass "destroyed",
      bareMember .destructor rootClass "~QObject"]⟩

def panelClass : MetaClass :=
  ⟨"Panel", .publicAccess, mainModule, some rootClass, []⟩

def buttonClass : MetaClass :=
  ⟨"Button", .publicAccess, mainModule, some "Panel", [bareMember .signal "Button" "clicked"]⟩

/-- A class that is visited before its base. -/
def leafFirst : Registry :=
  ⟨[buttonClass, panelClass, objectClass], by decide⟩

theorem conventional_leafFirst : leafFirst.Conventional where
  name := by
    have button : Source.Pattern.ident.Matches "Button".toList :=
      ⟨'B', "utton".toList, rfl, rfl, List.all_eq_true.mp rfl⟩
    have panel : Source.Pattern.ident.Matches "Panel".toList :=
      ⟨'P', "anel".toList, rfl, rfl, List.all_eq_true.mp rfl⟩
    have object : Source.Pattern.ident.Matches rootClass.toList :=
      ⟨'Q', "Object".toList, rfl, rfl, List.all_eq_true.mp rfl⟩
    simpa [leafFirst] using ⟨button, panel, object⟩
  declared := by decide
  library := by decide

theorem propagate_closedForm_leafFirst : leafFirst.HeirOf objectClass buttonClass ∧
    leafFirst.propagate.registry.find? "Button" = some { buttonClass with
      members := [bareMember .signal "Button" "clicked", bareMember .constructor "Button" "Button",
        bareMember .destructor "Button" "~Button"] } := by
  have hpanel : leafFirst.HeirOf objectClass panelClass :=
    .direct (by decide) rfl (by decide) rfl
  have hh : leafFirst.HeirOf objectClass buttonClass := .through (by decide) rfl hpanel
  exact ⟨hh, (propagate_closedForm conventional_leafFirst).2.1 objectClass buttonClass hh⟩

end Registry

end SignalBridge
