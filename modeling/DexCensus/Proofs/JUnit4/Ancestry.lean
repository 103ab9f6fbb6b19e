/-
Superclasses within a table of classes.

A class of a table has another one as its parent if it names it as its
superclass.  Names are distinct in a table, so there is at most one parent,
and looking it up finds it.  A table is acyclic if no class is its own
ancestor; since a table is finite, ancestry is then well-founded.
-/

import DexCensus.JUnit4.ClassTable
import Mathlib.Data.Fintype.EquivFin
import Mathlib.Data.List.Chain

namespace DexCensus
namespace JUnit4

namespace ClassTable

theorem find?_eq_some_iff (table : ClassTable) (name : String)
    (position : Fin table.size) :
    table.find? name = some position ↔ (table.get position).name = name := by
  have known := table.positions_iff name position.val
  have lookup : table.find? name = some position ↔
      table.positions[name]? = some position.val := by
    unfold find?
    split
    · rename_i other found
      have sameLookup := congrArg (· = some position.val) found
      simp only [Option.some.injEq] at sameLookup
      rw [sameLookup, Option.some.injEq, Fin.ext_iff]
    · rename_i missing
      simp only [missing, reduceCtorEq]
  rw [lookup, known]
  constructor
  · intro ⟨inside, same⟩
    exact same
  · intro same
    exact ⟨position.isLt, same⟩

/-- The class at `child` names the class at `parent` as its superclass. -/
def IsParent (table : ClassTable) (parent child : Fin table.size) : Prop :=
  (table.get child).superclassName = some (table.get parent).name

instance (table : ClassTable) (parent child : Fin table.size) :
    Decidable (table.IsParent parent child) :=
  inferInstanceAs (Decidable (_ = _))

theorem parent?_eq_some_iff (table : ClassTable)
    (parent child : Fin table.size) :
    table.parent? child = some parent ↔ table.IsParent parent child := by
  unfold parent? IsParent
  rw [Option.bind_eq_some_iff]
  constructor
  · intro ⟨name, named, found⟩
    rw [named, (table.find?_eq_some_iff name parent).mp found]
  · intro named
    exact ⟨_, named, (table.find?_eq_some_iff _ parent).mpr rfl⟩

def Acyclic (table : ClassTable) : Prop :=
  ∀ position, ¬ Relation.TransGen table.IsParent position position

theorem acyclic_of_parents_below {table : ClassTable}
    (below : ∀ parent child, table.IsParent parent child → child < parent) :
    table.Acyclic := by
  have ancestry (ancestor descendant : Fin table.size)
      (line : Relation.TransGen table.IsParent ancestor descendant) :
      descendant < ancestor := by
    induction line with
    | single edge => exact below _ _ edge
    | tail _ edge ih => exact Nat.lt_trans (below _ _ edge) ih
  intro position cycle
  exact Nat.lt_irrefl _ (ancestry position position cycle)

theorem Acyclic.wellFounded {table : ClassTable} (acyclic : table.Acyclic) :
    WellFounded table.IsParent := by
  have transitive : IsTrans (Fin table.size)
      (Relation.TransGen table.IsParent) :=
    ⟨fun _ _ _ first second => first.trans second⟩
  have irreflexive : Std.Irrefl (Relation.TransGen table.IsParent) :=
    ⟨acyclic⟩
  have ancestry := Finite.wellFounded_of_trans_of_irrefl
    (Relation.TransGen table.IsParent)
  exact Subrelation.wf (fun edge => Relation.TransGen.single edge) ancestry

theorem Acyclic.not_mem_descendants {table : ClassTable}
    (acyclic : table.Acyclic) {position : Fin table.size}
    {line : List (Fin table.size)}
    (linked : List.IsChain table.IsParent (position :: line)) :
    position ∉ line := by
  intro member
  have ancestry : List.IsChain (Relation.TransGen table.IsParent)
      (position :: line) :=
    linked.imp fun _ _ edge => Relation.TransGen.single edge
  exact acyclic position (ancestry.rel_cons member)

end ClassTable
end JUnit4
end DexCensus
