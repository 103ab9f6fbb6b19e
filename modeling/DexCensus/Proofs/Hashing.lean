/-
Hashes respect sameness.

What a hasher is given for a value ends by itself: a number tells the kind,
the kind tells what follows, and lists tell their lengths.  Two different
values are therefore never given alike, and values that are the same always
are.  Whatever a hasher makes of it, repeats left out by hash are the repeats
left out by search, and a repeat is what is identical to a test before it.
-/

import DexCensus.Proofs.OrderedSet
import DexCensus.Proofs.ProperTests

namespace DexCensus

section Delimited

variable {α : Type} {write : α → List HashInput}

/-- What is written for an element ends where it does, whatever follows, and
nothing else is written for another element. -/
def Delimited (write : α → List HashInput) (element : α) : Prop :=
  ∀ other rest otherRest,
    write element ++ rest = write other ++ otherRest →
      element = other ∧ rest = otherRest

def counted (write : α → List HashInput) (elements : List α) :
    List HashInput :=
  .length elements.length :: elements.flatMap write

private theorem write_eq_iff (delimited : ∀ element, Delimited write element)
    (left right : α) : write left = write right ↔ left = right := by
  constructor
  · intro same
    exact (delimited left right [] [] (by rw [same])).1
  · intro same
    rw [same]

private theorem flatMap_append_cancel {lefts rights : List α}
    (delimited : ∀ element ∈ lefts, Delimited write element)
    (sameLength : lefts.length = rights.length)
    {rest otherRest : List HashInput}
    (same : lefts.flatMap write ++ rest = rights.flatMap write ++ otherRest) :
    lefts = rights ∧ rest = otherRest := by
  induction lefts generalizing rights with
  | nil =>
      cases List.length_eq_zero_iff.mp sameLength.symm
      exact ⟨rfl, same⟩
  | cons left lefts ih =>
      cases rights with
      | nil => cases sameLength
      | cons right rights =>
          rw [List.flatMap_cons, List.flatMap_cons, List.append_assoc,
            List.append_assoc] at same
          obtain ⟨sameFirst, same⟩ :=
            delimited left List.mem_cons_self _ _ _ same
          obtain ⟨sameOthers, sameRest⟩ :=
            ih (fun element member =>
              delimited element (List.mem_cons_of_mem left member))
              (Nat.succ.inj sameLength) same
          exact ⟨by rw [sameFirst, sameOthers], sameRest⟩

theorem delimited_counted {elements : List α}
    (delimited : ∀ element ∈ elements, Delimited write element) :
    Delimited (counted write) elements := by
  intro others rest otherRest same
  obtain ⟨sameLength, same⟩ := List.cons.inj same
  exact flatMap_append_cancel delimited (HashInput.length.inj sameLength) same

end Delimited

namespace Value

def pairInputs (pair : String × Value) : List HashInput :=
  .text pair.1 :: pair.2.hashInputs

theorem delimited_pairInputs {pair : String × Value}
    (delimited : Delimited hashInputs pair.2) :
    Delimited pairInputs pair := by
  intro other rest otherRest same
  obtain ⟨sameName, same⟩ := List.cons.inj same
  obtain ⟨sameValue, sameRest⟩ := delimited _ _ _ same
  exact ⟨Prod.ext (HashInput.text.inj sameName) sameValue, sameRest⟩

private theorem listHashInputs_eq_flatMap (values : List Value) :
    listHashInputs values = values.flatMap hashInputs := by
  induction values with
  | nil => rfl
  | cons value rest ih => rw [listHashInputs, ih, List.flatMap_cons]

theorem namedHashInputs_eq_flatMap (values : NamedValues) :
    namedHashInputs values = values.flatMap pairInputs := by
  induction values with
  | nil => rfl
  | cons pair rest ih =>
      rw [namedHashInputs, ih, List.flatMap_cons, pairInputs,
        List.cons_append]

private theorem hashInputs_array (values : List Value) :
    hashInputs (.array values) = .kind 12 :: counted hashInputs values := by
  rw [hashInputs, listHashInputs_eq_flatMap, counted]

private theorem hashInputs_nested (name : String) (values : NamedValues) :
    hashInputs (.nested name values) =
      .kind 13 :: .text name :: counted pairInputs values := by
  rw [hashInputs, namedHashInputs_eq_flatMap, counted]

private theorem delimited_hashInputs (value : Value) :
    Delimited hashInputs value := by
  induction value using parts_induction with
  | leaf value isLeaf =>
      intro other rest otherRest same
      cases value with
      | array | nested => cases isLeaf
      | _ => cases other <;> simp_all [hashInputs]
  | array values ih =>
      intro other rest otherRest same
      cases other with
      | array others =>
          rw [hashInputs_array, hashInputs_array] at same
          obtain ⟨sameValues, sameRest⟩ :=
            delimited_counted ih _ _ _ (List.cons.inj same).2
          exact ⟨congrArg array sameValues, sameRest⟩
      | _ => simp [hashInputs] at same
  | nested name values ih =>
      intro other rest otherRest same
      cases other with
      | nested otherName others =>
          rw [hashInputs_nested, hashInputs_nested] at same
          obtain ⟨sameName, same⟩ := List.cons.inj (List.cons.inj same).2
          obtain ⟨sameValues, sameRest⟩ :=
            delimited_counted (fun pair member =>
              delimited_pairInputs (ih pair member)) _ _ _ same
          rw [HashInput.text.inj sameName, sameValues]
          exact ⟨rfl, sameRest⟩
      | _ => simp [hashInputs] at same

end Value

theorem TestAnnotation.delimited_hashInputs (entry : TestAnnotation) :
    Delimited TestAnnotation.hashInputs entry := by
  have inputs (entry : TestAnnotation) (rest : List HashInput) :
      entry.hashInputs ++ rest = .text entry.name
        :: (counted Value.pairInputs entry.values
          ++ (.bool entry.inherited :: rest)) := by
    unfold TestAnnotation.hashInputs
    rw [Value.namedHashInputs_eq_flatMap, counted]
    simp
  intro other rest otherRest same
  rw [inputs, inputs] at same
  obtain ⟨sameName, same⟩ := List.cons.inj same
  obtain ⟨sameValues, same⟩ := delimited_counted
    (fun pair _ => Value.delimited_pairInputs (pair.2.delimited_hashInputs))
    _ _ _ same
  obtain ⟨sameInherited, sameRest⟩ := List.cons.inj same
  cases entry
  cases other
  cases HashInput.text.inj sameName
  cases HashInput.bool.inj sameInherited
  cases sameValues
  exact ⟨rfl, sameRest⟩

private theorem TestMethod.delimited_hashInputs (method : TestMethod) :
    Delimited TestMethod.hashInputs method := by
  intro other rest otherRest same
  obtain ⟨sameName, same⟩ := List.cons.inj same
  obtain ⟨sameAnnotations, sameRest⟩ := delimited_counted
    (fun entry _ => entry.delimited_hashInputs) _ _ _ same
  cases method
  cases other
  cases HashInput.text.inj sameName
  cases sameAnnotations
  exact ⟨rfl, sameRest⟩

/-! ### Sameness and hashing -/

/-- A check of sameness that is an equivalence, that holds exactly between
identical elements as far as they are proper, and that hashing respects:
elements that are the same give a hasher the same, and other elements do
not. -/
structure HashedIdentity {α : Type} (check : α → α → Bool)
    (Proper : α → Prop) (Identical : α → α → Prop)
    (hashInputs : α → List HashInput) : Prop where
  equivalence : Equivalence fun left right => check left right = true
  exact : ∀ left right, Proper left → Proper right →
    (check left right = true ↔ Identical left right)
  hashed : ∀ left right,
    check left right = true ↔ hashInputs left = hashInputs right

theorem HashedIdentity.of_check_iff_eq {α : Type} {check : α → α → Bool}
    {Proper : α → Prop} {Identical : α → α → Prop}
    {hashInputs : α → List HashInput}
    (check_iff : ∀ left right, check left right = true ↔ left = right)
    (identical_iff : ∀ left right, Proper left → Proper right →
      (Identical left right ↔ left = right))
    (delimited : ∀ element, Delimited hashInputs element) :
    HashedIdentity check Proper Identical hashInputs where
  equivalence := by
    simp only [check_iff]
    exact eq_equivalence
  exact := by
    intro left right properLeft properRight
    rw [check_iff, identical_iff left right properLeft properRight]
  hashed := by
    intro left right
    rw [check_iff, write_eq_iff delimited]

theorem Value.hashedIdentity :
    HashedIdentity Value.same Value.Proper Value.Identical
      Value.hashInputs :=
  .of_check_iff_eq Value.same_iff_eq
    (fun _ _ properLeft => properLeft.identical_iff)
    Value.delimited_hashInputs

theorem TestAnnotation.hashedIdentity :
    HashedIdentity (fun left right : TestAnnotation => left == right)
      (fun entry => entry.values.Proper) TestAnnotation.Identical
      TestAnnotation.hashInputs :=
  .of_check_iff_eq (fun _ _ => beq_iff_eq)
    (fun _ _ => TestAnnotation.identical_iff)
    TestAnnotation.delimited_hashInputs

theorem TestMethod.hashedIdentity :
    HashedIdentity (fun left right : TestMethod => left == right)
      TestMethod.Proper TestMethod.Identical TestMethod.hashInputs :=
  .of_check_iff_eq (fun _ _ => beq_iff_eq)
    (fun _ _ properLeft => properLeft.identical_iff)
    TestMethod.delimited_hashInputs

def IsRepeat (before : List TestMethod) (method : TestMethod) : Prop :=
  ∃ known ∈ before, known.Identical method

private theorem isRepeat_iff_mem {before : List TestMethod}
    {method : TestMethod}
    (properBefore : ∀ known ∈ before, known.Proper)
    (proper : method.Proper) : IsRepeat before method ↔ method ∈ before := by
  constructor
  · rintro ⟨known, member, identical⟩
    rwa [← ((properBefore known member).identical_iff proper).mp identical]
  · intro member
    exact ⟨method, member, (proper.identical_iff proper).mpr rfl⟩

private theorem appendNew_concat_eq_iff_isRepeat {before : List TestMethod}
    {method : TestMethod} (properBefore : ∀ known ∈ before, known.Proper)
    (proper : method.Proper) :
    appendNew [] (before ++ [method]) = appendNew [] before ↔
      IsRepeat before method := by
  rw [appendNew_append, appendNew_singleton_eq_iff, mem_appendNew_iff,
    isRepeat_iff_mem properBefore proper]
  simp

/-- For values, annotations and tests alike, sameness is an equivalence, it is
identity, and what a hasher is given tells elements apart exactly as far as
they differ.  All tests that are found are proper.  Whatever is made of the
hasher inputs, leaving out repeats by hash and by search gives the same tests,
and either way a test is left out exactly if a test before it is identical. -/
theorem sameness_is_identity_and_hashing_respects_it :
    HashedIdentity Value.same Value.Proper Value.Identical
      Value.hashInputs ∧
    HashedIdentity (fun left right : TestAnnotation => left == right)
      (fun entry => entry.values.Proper) TestAnnotation.Identical
      TestAnnotation.hashInputs ∧
    HashedIdentity (fun left right : TestMethod => left == right)
      TestMethod.Proper TestMethod.Identical TestMethod.hashInputs ∧
    (∀ segment tree value, Dex.Segment.resolve segment tree = .ok value →
      value.Proper) ∧
    (∀ markers buffers tests,
      Discovery.findMethods markers buffers = .ok tests →
        ∀ test ∈ tests, test.Proper) ∧
    ∀ (digest : List HashInput → UInt64) (methods : List TestMethod),
      (∀ method ∈ methods, method.Proper) →
      letI := TestMethod.hashedBy digest
      (OrderedSet.empty.insertAll methods).toList = appendNew [] methods ∧
      ∀ before method after, methods = before ++ method :: after →
        ((OrderedSet.empty.insertAll (before ++ [method])).toList =
            (OrderedSet.empty.insertAll before).toList ↔
          IsRepeat before method) ∧
        (appendNew [] (before ++ [method]) = appendNew [] before ↔
          IsRepeat before method) := by
  refine ⟨Value.hashedIdentity, TestAnnotation.hashedIdentity,
    TestMethod.hashedIdentity, ?_, ?_, ?_⟩
  · intro segment tree value resolved
    exact ((segment.resolve_eq_ok_iff tree value).mp resolved).proper
  · intro markers buffers tests found
    exact Discovery.proper_of_findMethods found
  · intro digest methods proper
    let _ := TestMethod.hashedBy digest
    refine ⟨OrderedSet.toList_insertAll _ _, ?_⟩
    intro before method after split
    have properBefore : ∀ known ∈ before, known.Proper := fun known member =>
      proper known (split ▸ List.mem_append_left _ member)
    have properHere : method.Proper :=
      proper method (split ▸ List.mem_append_right _ List.mem_cons_self)
    have bySearch := appendNew_concat_eq_iff_isRepeat properBefore properHere
    rw [OrderedSet.toList_insertAll, OrderedSet.toList_insertAll]
    exact ⟨bySearch, bySearch⟩

/-! ### Tests that differ in a sign -/

/-- An array of a number that is none and of a zero, and an empty annotation,
under two names. -/
def numberPairs (zero : UInt64) : List (String × Value) :=
  [("values", .array [.float 0x7FC00000, .double zero]),
    ("inner", .nested "Inner" [])]

def numberTest (pairs : List (String × Value)) : TestMethod :=
  { testName := "Numbers#compare"
    annotations :=
      [{ name := "Sample"
         values := NamedValues.ofPairs pairs
         inherited := true }] }

private theorem numberTest_proper (zero : UInt64)
    {pairs : List (String × Value)}
    (same : pairs.Perm (numberPairs zero)) : (numberTest pairs).Proper := by
  intro entry member
  rw [List.mem_singleton.mp member]
  apply (NamedValues.collects_ofPairs pairs).proper
  intro value listed
  rw [(same.map Prod.snd).mem_iff] at listed
  simp only [numberPairs, List.map_cons, List.map_nil, List.mem_cons,
    List.not_mem_nil, or_false] at listed
  rcases listed with rfl | rfl
  · apply Value.Proper.array
    simp only [List.forall_mem_cons]
    exact ⟨.leaf rfl, .leaf rfl, by simp⟩
  · exact .nested List.Pairwise.nil (by simp)

/-- The same pairs in another order make the same test, and the sign of a zero
makes another one. -/
theorem numberTest_repeats :
    let positive := numberTest (numberPairs 0)
    let negative := numberTest (numberPairs 0x8000000000000000)
    let swapped := numberTest (numberPairs 0).reverse
    (negative == positive) = false ∧
    ¬ negative.Identical positive ∧
    swapped.Identical positive ∧
    letI := TestMethod.hashedBy fun _ => 0
    (OrderedSet.empty.insertAll [positive, negative, swapped]).toList =
      [positive, negative] := by
  intro positive negative swapped
  have positiveProper : positive.Proper := numberTest_proper 0 (.refl _)
  have negativeProper : negative.Proper := numberTest_proper _ (.refl _)
  have swappedProper : swapped.Proper :=
    numberTest_proper 0 (List.reverse_perm _)
  obtain ⟨_, _, methods, _, _, repeats⟩ :=
    sameness_is_identity_and_hashing_respects_it
  have differ : (negative == positive) = false := by decide
  have agree : (swapped == positive) = true := by decide
  refine ⟨differ, ?_, ?_, ?_⟩
  · rw [← methods.exact _ _ negativeProper positiveProper, differ]
    exact Bool.false_ne_true
  · exact (methods.exact _ _ swappedProper positiveProper).mp agree
  · rw [(repeats (fun _ => 0) [positive, negative, swapped] ?_).1]
    · decide
    · simp only [List.forall_mem_cons]
      exact ⟨positiveProper, negativeProper, swappedProper, by simp⟩

end DexCensus
