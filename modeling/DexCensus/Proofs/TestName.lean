/-
Test names taken apart.

A test name is a class name, a separator and a method name.  If the class name
has no separator in it, the first separator of the test name is the one that
was put there, whatever the method name is, so both parts can be had back.
-/

import DexCensus.Descriptor

namespace DexCensus
namespace TestName

@[simp] theorem toList_ofParts (className methodName : String) :
    (ofParts className methodName).toList =
      className.toList ++ separator :: methodName.toList := by
  simp [ofParts]

private theorem dropWhile_separator {front : List Char}
    (plain : separator ∉ front)
    (rest : List Char) :
    (front ++ separator :: rest).dropWhile (fun char => char ≠ separator) =
      separator :: rest := by
  have dropped : ∀ char ∈ front, (decide (char ≠ separator)) = true := by
    intro char member
    exact decide_eq_true fun same => plain (same ▸ member)
  rw [List.dropWhile_append_of_pos dropped,
    List.dropWhile_cons_of_neg (by simp)]

theorem methodPart_ofParts {className : String}
    (plain : separator ∉ className.toList) (methodName : String) :
    methodPart (ofParts className methodName) = methodName := by
  unfold methodPart
  rw [toList_ofParts, dropWhile_separator plain]
  exact String.ofList_toList

theorem ofParts_inj {leftClass rightClass : String}
    (leftPlain : separator ∉ leftClass.toList)
    (rightPlain : separator ∉ rightClass.toList)
    {leftMethod rightMethod : String}
    (same : ofParts leftClass leftMethod = ofParts rightClass rightMethod) :
    leftClass = rightClass ∧ leftMethod = rightMethod := by
  have sameMethod : leftMethod = rightMethod := by
    rw [← methodPart_ofParts leftPlain leftMethod, same,
      methodPart_ofParts rightPlain]
  subst sameMethod
  have sameChars := congrArg String.toList same
  rw [toList_ofParts, toList_ofParts] at sameChars
  exact ⟨String.toList_inj.mp (List.append_cancel_right sameChars), rfl⟩

/-- A name that is built in two ways is cut at two different separators, so
the longer class name goes on behind the shorter one with a separator. -/
theorem ofParts_eq_cases {leftClass rightClass leftMethod rightMethod : String}
    (same : ofParts leftClass leftMethod = ofParts rightClass rightMethod) :
    leftClass = rightClass ∨
      leftClass.toList ++ [separator] <+: rightClass.toList ∨
      rightClass.toList ++ [separator] <+: leftClass.toList := by
  have sameChars := congrArg String.toList same
  rw [toList_ofParts, toList_ofParts, List.append_eq_append_iff] at sameChars
  rcases sameChars with ⟨more, longer, rest⟩ | ⟨more, longer, rest⟩
  · cases more with
    | nil =>
        rw [List.append_nil] at longer
        exact Or.inl (String.toList_inj.mp longer).symm
    | cons char others =>
        rw [List.cons_append] at rest
        obtain ⟨isSeparator, _⟩ := List.cons.inj rest
        refine Or.inr (Or.inl ⟨others, ?_⟩)
        rw [longer, isSeparator, List.append_assoc, List.singleton_append]
  · cases more with
    | nil =>
        rw [List.append_nil] at longer
        exact Or.inl (String.toList_inj.mp longer)
    | cons char others =>
        rw [List.cons_append] at rest
        obtain ⟨isSeparator, _⟩ := List.cons.inj rest
        refine Or.inr (Or.inr ⟨others, ?_⟩)
        rw [longer, isSeparator, List.append_assoc, List.singleton_append]

theorem exists_ofParts_of_startsWith {className testName : String}
    (starts : className.toList ++ [separator] <+: testName.toList) :
    ∃ methodName, testName = ofParts className methodName := by
  obtain ⟨rest, whole⟩ := starts
  refine ⟨String.ofList rest, String.toList_inj.mp ?_⟩
  rw [toList_ofParts, String.toList_ofList, ← whole, List.append_assoc,
    List.singleton_append]

theorem withoutTrailingSeparators_eq_self {name : String}
    (plainEnd : name.toList.getLast? ≠ some separator) :
    withoutTrailingSeparators name = name := by
  have nothingDropped : name.toList.reverse.dropWhile
      (fun char => decide (char = separator)) = name.toList.reverse := by
    rw [← List.head?_reverse] at plainEnd
    cases reversed : name.toList.reverse with
    | nil => rfl
    | cons last front =>
        rw [reversed] at plainEnd
        have differs : last ≠ separator := by
          intro same
          exact plainEnd (congrArg some same)
        rw [List.dropWhile_cons, if_neg (by simpa using differs)]
  rw [withoutTrailingSeparators, nothingDropped, List.reverse_reverse,
    String.ofList_toList]

end TestName
end DexCensus
