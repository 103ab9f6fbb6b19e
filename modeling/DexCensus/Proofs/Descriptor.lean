/-
Which descriptors name classes.

A descriptor names a class exactly if it is `L`, a path and `;`, and the
dotted name of the class is the path with dots in the place of slashes.  If
the path has no dots, slashes in the place of dots lead back to it, and no
other such descriptor has the name.
-/

import DexCensus.Descriptor

namespace DexCensus
namespace Descriptor

def HasPath (descriptor : String) (path : List Char) : Prop :=
  descriptor.toList = 'L' :: (path ++ [';'])

theorem HasPath.unique {descriptor : String} {left right : List Char}
    (first : HasPath descriptor left) (second : HasPath descriptor right) :
    left = right := by
  unfold HasPath at first second
  rw [first] at second
  exact List.append_cancel_right (List.cons.inj second).2

private theorem path?_eq_some_iff (chars path : List Char) :
    path? chars = some path ↔ chars = 'L' :: (path ++ [';']) := by
  constructor
  · intro found
    unfold path? at found
    split at found
    · rename_i rest
      by_cases closed : rest.getLast? = some ';'
      · rw [if_pos closed] at found
        obtain ⟨front, split⟩ := List.getLast?_eq_some_iff.mp closed
        cases found
        rw [split, List.dropLast_concat]
      · rw [if_neg closed] at found
        cases found
    · cases found
  · intro whole
    subst whole
    simp [path?]

private theorem className?_eq_some_iff (descriptor name : String) :
    className? descriptor = some name ↔
      ∃ path, HasPath descriptor path ∧
        name = String.ofList (path.map dotted) := by
  unfold className?
  rw [Option.map_eq_some_iff]
  constructor
  · intro ⟨path, found, same⟩
    exact ⟨path, (path?_eq_some_iff _ path).mp found, same.symm⟩
  · intro ⟨path, whole, same⟩
    exact ⟨path, (path?_eq_some_iff _ path).mpr whole, same.symm⟩

theorem className_eq_ok_iff (descriptor name : String) :
    className descriptor = .ok name ↔
      ∃ path, HasPath descriptor path ∧
        name = String.ofList (path.map dotted) := by
  rw [← className?_eq_some_iff]
  unfold className
  cases className? descriptor with
  | none => simp
  | some found => simp

/-! ### The descriptor of a dotted name -/

private theorem hasPath_iff (descriptor path : String) :
    HasPath descriptor path.toList ↔ descriptor = "L" ++ path ++ ";" := by
  rw [HasPath, ← String.toList_inj, String.toList_append, String.toList_append]
  exact Iff.rfl

theorem className_eq_ok_iff_of_path (descriptor name : String) :
    className descriptor = .ok name ↔
      ∃ path : String, descriptor = "L" ++ path ++ ";" ∧
        name = path.map dotted := by
  rw [className_eq_ok_iff]
  constructor
  · intro ⟨path, whole, same⟩
    refine ⟨String.ofList path, (hasPath_iff _ _).mp ?_, ?_⟩
    · rw [String.toList_ofList]
      exact whole
    · rw [same, ← String.toList_inj, String.toList_ofList, String.toList_map,
        String.toList_ofList]
  · intro ⟨path, whole, same⟩
    refine ⟨path.toList, (hasPath_iff _ _).mpr whole, ?_⟩
    rw [same, ← String.toList_inj, String.toList_ofList, String.toList_map]

theorem exists_className_iff (descriptor : String) :
    (∃ name, className descriptor = .ok name) ↔
      ∃ path, descriptor = "L" ++ path ++ ";" := by
  constructor
  · intro ⟨name, formed⟩
    obtain ⟨path, whole, _⟩ := (className_eq_ok_iff_of_path _ _).mp formed
    exact ⟨path, whole⟩
  · intro ⟨path, whole⟩
    exact ⟨_, (className_eq_ok_iff_of_path _ _).mpr ⟨path, whole, rfl⟩⟩

/-- What stands in a path where its dotted name has a character, if the path
has no dots. -/
def slashed (char : Char) : Char :=
  if char = '.' then '/' else char

private theorem slashed_dotted {char : Char} (noDot : char ≠ '.') :
    slashed (dotted char) = char := by
  unfold dotted
  by_cases slash : char = '/'
  · rw [if_pos slash, slash]
    rfl
  · rw [if_neg slash, slashed, if_neg noDot]

theorem map_slashed_map_dotted {path : String} (noDot : '.' ∉ path.toList) :
    (path.map dotted).map slashed = path := by
  rw [← String.toList_inj, String.toList_map, String.toList_map, List.map_map]
  refine (List.map_congr_left ?_).trans (List.map_id _)
  intro char member
  exact slashed_dotted fun dot => noDot (dot ▸ member)

private theorem descriptor_eq_of_className {descriptor name : String}
    (formed : className descriptor = .ok name)
    (noDot : '.' ∉ descriptor.toList) :
    descriptor = "L" ++ name.map slashed ++ ";" := by
  obtain ⟨path, whole, same⟩ := (className_eq_ok_iff_of_path _ _).mp formed
  have noDotInPath : '.' ∉ path.toList := by
    intro member
    apply noDot
    rw [whole, String.toList_append, String.toList_append]
    exact List.mem_append_left _ (List.mem_append_right _ member)
  rw [same, map_slashed_map_dotted noDotInPath]
  exact whole

theorem className_injective {left right name : String}
    (first : className left = .ok name) (second : className right = .ok name)
    (leftNoDot : '.' ∉ left.toList) (rightNoDot : '.' ∉ right.toList) :
    left = right :=
  (descriptor_eq_of_className first leftNoDot).trans
    (descriptor_eq_of_className second rightNoDot).symm

/-- With a dot in a path, two descriptors can have one dotted name. -/
example : className "La.B;" = .ok "a.B" ∧ className "La/B;" = .ok "a.B" :=
  ⟨rfl, rfl⟩

end Descriptor
end DexCensus
