import Mathlib.Data.List.Induction
import Mathlib.Data.Nat.Find
import SignalBridge.Library.Basic
import SignalBridge.Proofs.Registry.Declaration
import SignalBridge.Proofs.Registry.Resolution

namespace SignalBridge

/-- A class of a module as the registry takes it in: it has the module's name in lower case, and its
members have full names. -/
def LibraryModule.entry (m : LibraryModule) (c : MetaClass) : MetaClass :=
  { c with
    moduleName := String.ofList (Text.lower m.name.toList)
    members := c.members.map fun x =>
      { x with fullName := if x.fullName = "" then c.name ++ "::" ++ x.name else x.fullName } }

namespace Registry

/-- One class comes, or the class of one name goes. -/
inductive Event where
  | put (c : MetaClass)
  | drop (name : String)

/-- The name that an event is about. -/
def Event.name : Event → String
  | .put c => c.name
  | .drop name => name

def Event.apply (r : Registry) : Event → Registry
  | .put c => r.insert c
  | .drop name => r.erase name

/-- What is done to a registry from outside. -/
inductive Edit where
  | insert (c : MetaClass)
  | load (m : LibraryModule)
  | remove (name : String)

def Edit.apply (r : Registry) : Edit → Registry
  | .insert c => r.insert c
  | .load m => r.load m
  | .remove name => r.erase name

def Edit.events : Edit → List Event
  | .insert c => [.put c]
  | .load m => m.classes.map fun c => .put (m.entry c)
  | .remove name => [.drop name]

/-- The class came, and nothing since is about its name. -/
def CameLast (history : List Event) (c : MetaClass) : Prop :=
  ∃ early late, history = early ++ .put c :: late ∧ ∀ e ∈ late, e.name ≠ c.name

/-- After `time` events a class called `name` came, and none of that name was removed since. -/
def StandsSince (history : List Event) (name : String) (time : Nat) : Prop :=
  ∃ early c late, history = early ++ .put c :: late ∧ early.length = time ∧ c.name = name ∧
    .drop name ∉ late

/-- That was the first time it came since it was last removed. -/
def EnteredAt (history : List Event) (name : String) (time : Nat) : Prop :=
  StandsSince history name time ∧ ∀ other, StandsSince history name other → time ≤ other

variable {r r' : Registry} {history : List Event} {c d : MetaClass} {name other : String}
  {time : Nat} {structs : List Source.StructDecl}

section Events

theorem concat_eq_append_cons_iff {α : Type} {xs early late : List α} {x y : α} :
    xs ++ [x] = early ++ y :: late ↔ (early = xs ∧ y = x ∧ late = []) ∨
      ∃ rest, late = rest ++ [x] ∧ xs = early ++ y :: rest := by
  constructor
  · intro h
    rcases List.eq_nil_or_concat late with rfl | ⟨rest, z, rfl⟩
    · obtain ⟨rfl, hx⟩ := List.append_inj' h rfl
      exact .inl ⟨rfl, (List.singleton_inj.mp hx).symm, rfl⟩
    · rw [List.concat_eq_append, ← List.cons_append, ← List.append_assoc] at h
      obtain ⟨rfl, hx⟩ := List.append_inj' h rfl
      exact .inr ⟨rest, by rw [List.concat_eq_append, hx], rfl⟩
  · rintro (⟨rfl, rfl, rfl⟩ | ⟨rest, rfl, rfl⟩)
    · rfl
    · rw [List.append_assoc, List.cons_append]

theorem cameLast_concat {e : Event} :
    CameLast (history ++ [e]) c ↔ e = .put c ∨ (CameLast history c ∧ e.name ≠ c.name) := by
  constructor
  · rintro ⟨early, late, h, hlate⟩
    rcases concat_eq_append_cons_iff.mp h with ⟨-, hc, -⟩ | ⟨rest, rfl, rfl⟩
    · exact .inl hc.symm
    · rw [List.forall_mem_append] at hlate
      exact .inr ⟨⟨early, rest, rfl, hlate.1⟩, hlate.2 e List.mem_cons_self⟩
  · rintro (rfl | ⟨⟨early, late, rfl, hlate⟩, hne⟩)
    · exact ⟨history, [], rfl, by simp⟩
    · refine ⟨early, late ++ [e], by simp, List.forall_mem_append.mpr ⟨hlate, ?_⟩⟩
      simpa using hne

theorem standsSince_concat {e : Event} : StandsSince (history ++ [e]) name time ↔
    (time = history.length ∧ ∃ c, e = .put c ∧ c.name = name) ∨
      (StandsSince history name time ∧ e ≠ .drop name) := by
  constructor
  · rintro ⟨early, c, late, h, rfl, hn, hlate⟩
    rcases concat_eq_append_cons_iff.mp h with ⟨rfl, rfl, -⟩ | ⟨rest, rfl, rfl⟩
    · exact .inl ⟨rfl, c, rfl, hn⟩
    · rw [List.mem_append, List.mem_singleton, not_or] at hlate
      exact .inr ⟨⟨early, c, rest, rfl, rfl, hn, hlate.1⟩, Ne.symm hlate.2⟩
  · rintro (⟨rfl, c, rfl, hn⟩ | ⟨⟨early, c, late, rfl, rfl, hn, hlate⟩, hne⟩)
    · exact ⟨history, c, [], rfl, rfl, hn, List.not_mem_nil⟩
    · refine ⟨early, c, late ++ [e], by simp, rfl, hn, ?_⟩
      rw [List.mem_append, List.mem_singleton, not_or]
      exact ⟨hlate, Ne.symm hne⟩

theorem StandsSince.lt_length (h : StandsSince history name time) : time < history.length := by
  obtain ⟨early, c, late, rfl, rfl, -, -⟩ := h
  rw [List.length_append, List.length_cons]
  omega

theorem exists_enteredAt (h : StandsSince history name time) :
    ∃ first, EnteredAt history name first := by
  classical
  have hex : ∃ time, StandsSince history name time := ⟨time, h⟩
  exact ⟨Nat.find hex, Nat.find_spec hex, fun _ hother => Nat.find_min' hex hother⟩

/-- A name that has come keeps its time when a class comes. -/
theorem EnteredAt.put (h : EnteredAt history name time) :
    EnteredAt (history ++ [.put d]) name time := by
  refine ⟨standsSince_concat.mpr (.inr ⟨h.1, nofun⟩), ?_⟩
  intro other hother
  rcases standsSince_concat.mp hother with ⟨rfl, -⟩ | ⟨hother, -⟩
  · exact Nat.le_of_lt h.1.lt_length
  · exact h.2 other hother

theorem EnteredAt.drop (h : EnteredAt history name time) (hne : name ≠ other) :
    EnteredAt (history ++ [.drop other]) name time := by
  refine ⟨standsSince_concat.mpr (.inr ⟨h.1, ?_⟩), ?_⟩
  · intro he
    exact hne (Event.drop.inj he).symm
  · intro since hsince
    rcases standsSince_concat.mp hsince with ⟨-, c, hc, -⟩ | ⟨hsince, -⟩
    · cases hc
    · exact h.2 since hsince

/-- A name that does not stand comes now. -/
theorem enteredAt_new (h : ∀ time, ¬ StandsSince history d.name time) :
    EnteredAt (history ++ [.put d]) d.name history.length := by
  refine ⟨standsSince_concat.mpr (.inl ⟨rfl, d, rfl, rfl⟩), ?_⟩
  intro other hother
  rcases standsSince_concat.mp hother with ⟨rfl, -⟩ | ⟨hother, -⟩
  · exact Nat.le_refl _
  · exact absurd hother (h other)

end Events

section Names

theorem Event.find?_apply {e : Event} : (e.apply r).find? name = some c ↔
    (e = .put c ∧ c.name = name) ∨ (r.find? name = some c ∧ e.name ≠ name) := by
  cases e with
  | put d =>
    rw [Event.apply, find?_insert, Event.put.injEq, Event.name]
    split
    · rename_i hn
      constructor
      · intro h
        exact .inl ⟨Option.some.inj h, Option.some.inj h ▸ hn⟩
      · rintro (⟨rfl, -⟩ | ⟨-, hne⟩)
        · rfl
        · exact absurd hn hne
    · rename_i hn
      constructor
      · intro h
        exact .inr ⟨h, hn⟩
      · rintro (⟨rfl, hd⟩ | ⟨h, -⟩)
        · exact absurd hd hn
        · exact h
  | drop other =>
    rw [Event.apply, Event.name, find?_eq_some_iff, find?_eq_some_iff, erase, filter,
      List.mem_filter]
    constructor
    · rintro ⟨⟨hc, hne⟩, rfl⟩
      exact .inr ⟨⟨hc, rfl⟩, Ne.symm (of_decide_eq_true hne)⟩
    · rintro (⟨h, -⟩ | ⟨⟨hc, rfl⟩, hne⟩)
      · cases h
      · exact ⟨⟨hc, decide_eq_true (Ne.symm hne)⟩, rfl⟩

theorem Event.mem_names_apply {e : Event} : name ∈ (e.apply r).names ↔
    (∃ c, e = .put c ∧ c.name = name) ∨ (name ∈ r.names ∧ e ≠ .drop name) := by
  cases e with
  | put d =>
    have hinsert : name ∈ (r.insert d).names ↔ d.name = name ∨ name ∈ r.names := by
      rw [names_insert]
      split
      · rename_i hd
        exact ⟨.inr, fun h => h.elim (fun he => he ▸ hd) id⟩
      · rw [List.mem_append, List.mem_singleton, or_comm, eq_comm]
    rw [Event.apply, hinsert]
    simp
  | drop other =>
    rw [Event.apply, names_erase, List.mem_filter, decide_eq_true_eq]
    simp [eq_comm]

end Names

section Run

/-- The registry after a history. -/
def after (history : List Event) : Registry :=
  history.foldl Event.apply empty

theorem after_concat (history : List Event) (e : Event) :
    after (history ++ [e]) = e.apply (after history) := by
  rw [after, List.foldl_append]
  rfl

theorem find?_after (history : List Event) :
    (after history).find? name = some c ↔ c.name = name ∧ CameLast history c := by
  induction history using List.reverseRecOn with
  | nil => simp [after, empty, find?, CameLast]
  | append_singleton history e ih =>
    rw [after_concat, Event.find?_apply, ih, cameLast_concat]
    constructor
    · rintro (⟨he, hn⟩ | ⟨⟨rfl, h⟩, hne⟩)
      · exact ⟨hn, .inl he⟩
      · exact ⟨rfl, .inr ⟨h, hne⟩⟩
    · rintro ⟨rfl, he | ⟨h, hne⟩⟩
      · exact .inl ⟨he, rfl⟩
      · exact .inr ⟨⟨rfl, h⟩, hne⟩

theorem mem_names_after (history : List Event) :
    name ∈ (after history).names ↔ ∃ time, StandsSince history name time := by
  induction history using List.reverseRecOn with
  | nil => simp [after, empty, names, StandsSince]
  | append_singleton history e ih =>
    rw [after_concat, Event.mem_names_apply, ih]
    simp only [standsSince_concat, exists_or, exists_and_right, exists_eq, true_and]

/-- The first of two names has entered before the second. -/
def EnteredBefore (history : List Event) (first second : String) : Prop :=
  ∃ s t, EnteredAt history first s ∧ EnteredAt history second t ∧ s < t

theorem pairwise_enteredBefore (history : List Event) :
    (after history).names.Pairwise (EnteredBefore history) := by
  induction history using List.reverseRecOn with
  | nil => exact List.Pairwise.nil
  | append_singleton history e ih =>
    rw [after_concat]
    cases e with
    | put d =>
      have hold : (after history).names.Pairwise (EnteredBefore (history ++ [.put d])) :=
        ih.imp fun ⟨s, t, hs, ht, hlt⟩ => ⟨s, t, hs.put, ht.put, hlt⟩
      rw [Event.apply, names_insert]
      split
      · exact hold
      · rename_i hd
        -- All names that stand have entered by now, and the new one enters now.
        rw [mem_names_after, not_exists] at hd
        rw [List.pairwise_append]
        refine ⟨hold, List.pairwise_singleton _ _, ?_⟩
        intro name hn new hnew
        obtain rfl := List.mem_singleton.mp hnew
        obtain ⟨time, hsince⟩ := (mem_names_after history).mp hn
        obtain ⟨first, hfirst⟩ := exists_enteredAt hsince
        exact ⟨first, history.length, hfirst.put, enteredAt_new hd, hfirst.1.lt_length⟩
    | drop other =>
      rw [Event.apply, names_erase, List.pairwise_filter]
      refine ih.imp ?_
      rintro first second ⟨s, t, hs, ht, hlt⟩ hfirst hsecond
      exact ⟨s, t, hs.drop (of_decide_eq_true hfirst), ht.drop (of_decide_eq_true hsecond), hlt⟩

end Run

section Edits

theorem entry_eq (m : LibraryModule) (c : MetaClass) :
    m.entry c = { c.qualifyMembers with moduleName := m.key } := by
  rw [LibraryModule.entry, MetaClass.qualifyMembers, LibraryModule.key]
  congr 1
  apply List.map_congr_left
  intro x _
  by_cases hx : x.fullName = "" <;> simp [hx, qualify]

theorem foldl_events (r : Registry) (e : Edit) : e.events.foldl Event.apply r = e.apply r := by
  cases e with
  | insert c => rfl
  | remove name => rfl
  | load m =>
    simp only [Edit.events, List.foldl_map, entry_eq]
    rfl

theorem after_flatMap_events (edits : List Edit) :
    after (edits.flatMap Edit.events) = edits.foldl Edit.apply empty := by
  rw [after, List.foldl_flatMap]
  simp only [foldl_events]

end Edits

section Steps

/-- What a session may do to its registry. -/
inductive Step where
  | edit (e : Edit)
  | build (files : List Source.SourceFile)
  | mapTypes
  | propagate
  | prune
  | resolve

/-- The registry after a step. A build that fails leaves the classes it had registered by then. -/
def Step.apply (r : Registry) : Step → Registry
  | .edit e => e.apply r
  | .build files =>
    match r.build files with
    | .ok (built, _) => built
    | .error d => d.registry
  | .mapTypes => r.mapTypes
  | .propagate => r.propagate.registry
  | .prune => r.prune
  | .resolve => r.resolve.registry

/-- The names that a step takes away. -/
def Step.dropped (r : Registry) : Step → List String
  | .edit (.remove name) => [name]
  | .prune => r.strays.map MetaClass.name
  | .resolve => r.resolve.pruned
  | _ => []

theorem prefix_insert (r : Registry) (c : MetaClass) : r.names <+: (r.insert c).names := by
  rw [names_insert]
  split
  · exact List.prefix_refl _
  · exact List.prefix_append _ _

theorem prefix_load (r : Registry) (m : LibraryModule) : r.names <+: (r.load m).names := by
  unfold load
  generalize m.classes = cs
  induction cs generalizing r with
  | nil => exact List.prefix_refl _
  | cons c cs ih => exact (prefix_insert r _).trans (ih _)

theorem prefix_declare : (∀ r', r.declare structs = .ok r' → r.names <+: r'.names) ∧
    ∀ d, r.declare structs = .error d → r.names <+: d.registry.names := by
  induction structs generalizing r with
  | nil => simp [declare]
  | cons s ss ih =>
    unfold declare
    split
    · simp
    · have hshell := prefix_insert r s.shell
      exact ⟨fun r' h => hshell.trans (ih.1 r' h), fun d h => hshell.trans (ih.2 d h)⟩

theorem prefix_build (r : Registry) (files : List Source.SourceFile) :
    r.names <+: (Step.apply r (.build files)).names := by
  cases hd : r.declare (files.flatMap Source.SourceFile.structs) with
  | ok registered =>
    have hbuild : Step.apply r (.build files) =
        registered.attach (files.flatMap Source.SourceFile.structs) := by
      simp only [Step.apply, build, hd]
      rfl
    rw [hbuild, attach, names_mapMembers]
    exact prefix_declare.1 registered hd
  | error d =>
    have hbuild : Step.apply r (.build files) = d.registry := by
      simp only [Step.apply, build, hd]
      rfl
    rw [hbuild]
    exact prefix_declare.2 d hd

/-- The names of `r` but for those that are dropped stand first, as they stood, and what follows
them is new. -/
def Keeps (r : Registry) (dropped : List String) (r' : Registry) : Prop :=
  ∃ new, r'.names = r.names.filter (· ∉ dropped) ++ new ∧ ∀ name ∈ new, name ∉ r.names

theorem keeps_of_filter {dropped : List String} (h : r'.names = r.names.filter (· ∉ dropped)) :
    r.Keeps dropped r' :=
  ⟨[], by rw [h, List.append_nil], by simp⟩

theorem keeps_of_prefix (h : r.names <+: r'.names) : r.Keeps [] r' := by
  obtain ⟨new, hnew⟩ := h
  have hnodup : (r.names ++ new).Nodup := by
    rw [hnew]
    exact r'.names_nodup
  have hdisjoint := (List.nodup_append'.mp hnodup).2.2
  refine ⟨new, ?_, fun name hn ho => hdisjoint ho hn⟩
  rw [← hnew, List.filter_eq_self.mpr (by simp)]

theorem keeps_of_eq (h : r'.names = r.names) : r.Keeps [] r' :=
  keeps_of_prefix ⟨[], by rw [h, List.append_nil]⟩

theorem keeps_apply (r : Registry) (s : Step) : r.Keeps (s.dropped r) (s.apply r) := by
  cases s with
  | edit e =>
    cases e with
    | insert c => exact keeps_of_prefix (r.prefix_insert c)
    | load m => exact keeps_of_prefix (r.prefix_load m)
    | remove name =>
      apply keeps_of_filter
      simp only [Step.apply, Edit.apply, Step.dropped, names_erase, List.mem_singleton]
  | build files => exact keeps_of_prefix (r.prefix_build files)
  | mapTypes => exact keeps_of_eq (r.names_mapMembers _)
  | propagate => exact keeps_of_eq r.names_propagate
  | prune => exact keeps_of_filter r.names_prune
  | resolve =>
    apply keeps_of_filter
    rw [← r.names_propagate]
    exact r.propagate.registry.names_prune

end Steps

/-- The registry is a map in order of insertion. After any edits, what it finds under a name is the
class that came last under it and was not removed since; it has the names that stand, each once, in
the order in which they entered. No step of a session, a build that fails included, moves a name
that it keeps, and names that come new come behind. -/
theorem insertion_ordered :
    (∀ edits : List Edit,
      let r := edits.foldl Edit.apply empty
      let history := edits.flatMap Edit.events
      (∀ name c, r.find? name = some c ↔ c.name = name ∧ CameLast history c) ∧
      (∀ name, name ∈ r.names ↔ ∃ time, EnteredAt history name time) ∧
      r.names.Nodup ∧
      r.names.Pairwise fun first second => ∃ s t,
        EnteredAt history first s ∧ EnteredAt history second t ∧ s < t) ∧
    ∀ (r : Registry) (s : Step), ∃ new,
      (s.apply r).names = r.names.filter (· ∉ s.dropped r) ++ new ∧
        ∀ name ∈ new, name ∉ r.names := by
  refine ⟨?_, keeps_apply⟩
  intro edits r history
  have hr : after history = r := after_flatMap_events edits
  rw [← hr]
  refine ⟨fun _ _ => find?_after history, ?_, names_nodup _, pairwise_enteredBefore history⟩
  intro name
  rw [mem_names_after]
  constructor
  · rintro ⟨time, h⟩
    exact exists_enteredAt h
  · rintro ⟨time, h⟩
    exact ⟨time, h.1⟩

end Registry

end SignalBridge
