import Scaffold.Entity.Basic

/-!
# The entities that belong to a description

The root entity may own entities that nothing describes. They are added, and whatever they own in
turn, in the order in which the names are met: a queue of entities is worked off, and each name that
has not been met before puts a new entity at its end.

The work ends because an added entity owns nothing: each entity weighs one more than twice the
number of names it owns, and replacing it by the entities of its names makes the queue lighter.
-/

namespace Scaffold

namespace Entity

/-- The entities to add for the names that `owner` owns, and the names met so far, where `met` are
the names met before. -/
def discover (owner : String) (met : List String) : List String → List Entity × List String
  | [] => ([], met)
  | name :: rest =>
    if name ∈ met then discover owner met rest
    else
      let found := discover owner (name :: met) rest
      (synthesized name owner :: found.1, found.2)

/-- What an entity contributes to the work that is left. -/
def weight (entity : Entity) : Nat :=
  2 * entity.owned.length + 1

/-- What the entities of a queue contribute to the work that is left. -/
def work : List Entity → Nat
  | [] => 0
  | entity :: rest => entity.weight + work rest

/-- The work of two queues is the work of both. -/
theorem work_append (queue more : List Entity) : work (queue ++ more) = work queue + work more := by
  induction queue with
  | nil => exact (Nat.zero_add _).symm
  | cons entity rest ih => rw [List.cons_append, work, work, ih, Nat.add_assoc]

/-- What is discovered costs no more than one unit of work for every name. -/
theorem work_discover_le (owner : String) (met names : List String) :
    work (discover owner met names).1 ≤ names.length := by
  induction names generalizing met with
  | nil => exact Nat.le_refl 0
  | cons name rest ih =>
    rw [discover]
    split
    · exact Nat.le_succ_of_le (ih met)
    · have h := ih (name :: met)
      have hw : weight (synthesized name owner) = 1 := rfl
      rw [work, hw, List.length_cons]
      omega

/-- The entities of a queue and those that are added for what they own, where `met` are the names
met before. -/
def expandFrom (met : List String) : List Entity → List Entity
  | [] => []
  | entity :: queue =>
    let found := discover entity.name met entity.owned
    entity :: expandFrom found.2 (queue ++ found.1)
termination_by queue => work queue
decreasing_by
  have h := work_discover_le entity.name met entity.owned
  rw [work_append, work]
  have hw : weight entity = 2 * entity.owned.length + 1 := rfl
  omega

/-- The root entity and all entities that are added for it. -/
def expand (root : Entity) : List Entity :=
  expandFrom [root.name] [root]

end Entity

end Scaffold
