import SignalBridge.Registry.Ancestry

namespace SignalBridge.Registry

/-- The constructors and destructors of the base of `c`, renamed for `c`. -/
def inherited (r : Registry) (c : MetaClass) : List Member :=
  match c.base.bind r.find? with
  | some base => (base.members.filter (·.category.isInherited)).map (·.renamedFor c.name)
  | none => []

/-- The members whose full names are neither known nor those of members before them. -/
def fresh (known : List String) : List Member → List Member
  | [] => []
  | m :: ms =>
    if m.fullName ∈ known then fresh known ms else m :: fresh (m.fullName :: known) ms

/-- What the class `name` inherits and does not have yet. -/
def gains (r : Registry) (name : String) : List Member :=
  match r.find? name with
  | some c => fresh (c.members.map Member.fullName) (r.inherited c)
  | none => []

/-- One round: each class in turn inherits from its base as it is by then. Returns also how many
members were added. -/
def inheritRound : List String → Registry → Registry × Nat
  | [], r => (r, 0)
  | name :: names, r =>
    let gained := r.gains name
    let (after, added) := inheritRound names (r.addMembers name gained)
    (after, gained.length + added)

structure Propagation where
  registry : Registry
  /-- How many members were added. -/
  added : Nat
  /-- How many rounds were run, the last one, which adds nothing, included. -/
  rounds : Nat

/-- Runs rounds until one adds nothing, at most `limit` of them. -/
def inheritRounds (names : List String) : (limit : Nat) → Registry → Propagation
  | 0, r => ⟨r, 0, 0⟩
  | limit + 1, r =>
    let (after, added) := inheritRound names r
    if added = 0 then ⟨after, 0, 1⟩
    else
      let rest := inheritRounds names limit after
      ⟨rest.registry, added + rest.added, rest.rounds + 1⟩

/-- As many rounds as can be needed. A class never gains a full name twice, and the names it can
gain are those that constructors and destructors have at the start, and those of the declared
classes with and without `~`; every round but the last adds a member. -/
def roundLimit (r : Registry) : Nat :=
  let declared := r.declared.length
  let handedDown := (r.classes.flatMap MetaClass.members).countP (·.category.isInherited)
  declared * (handedDown + 2 * declared) + 1

/-- Hands constructors and destructors down to the declared classes. -/
def propagate (r : Registry) : Propagation :=
  inheritRounds (r.declared.map MetaClass.name) r.roundLimit r

/-- The declared classes that are no objects. -/
def strays (r : Registry) : List MetaClass :=
  r.declared.filter fun c => !r.isObjectClass c.name

def prune (r : Registry) : Registry :=
  r.filter fun c => !c.isDeclared || r.isObjectClass c.name

structure Resolution where
  registry : Registry
  added : Nat
  rounds : Nat
  /-- The names of the classes that were dropped. -/
  pruned : List String

/-- Propagation, then pruning. -/
def resolve (r : Registry) : Resolution :=
  let p := r.propagate
  ⟨p.registry.prune, p.added, p.rounds, p.registry.strays.map MetaClass.name⟩

end SignalBridge.Registry
