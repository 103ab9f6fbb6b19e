/-
Which definitions are JUnit3 test classes, and which tests they have.

The test classes are the least set of definitions that holds every definition
whose superclass is a test case class of the platform or a test class.  Bases
are known by descriptor and not by definition: a definition whose superclass
has the descriptor of a test class is itself a test class, wherever the two
stand.  A search reads the superclass of every definition and all of each test
class, and stops where it cannot.
-/

import DexCensus.JUnit3
import DexCensus.Proofs.Computation
import DexCensus.Proofs.Descriptor

namespace DexCensus
namespace JUnit3

open Dex

def HasSuperclass (definition : Definition) (descriptor : String) : Prop :=
  definition.segment.superclassDescriptor? definition.classDef =
    .ok (some descriptor)

def HasDescriptor (definition : Definition) (descriptor : String) : Prop :=
  definition.segment.classDescriptor definition.classDef = .ok descriptor

/-- The least set of definitions that is closed under having a base for the
superclass. -/
inductive TestClass (all : List Definition) : Definition → Prop
  | seed {definition : Definition} {superclass : String} :
      definition ∈ all → HasSuperclass definition superclass →
        superclass ∈ platformBases → TestClass all definition
  | step {definition base : Definition} {superclass : String} :
      definition ∈ all → HasSuperclass definition superclass →
        TestClass all base → HasDescriptor base superclass →
          TestClass all definition

theorem TestClass.mem {all : List Definition} {definition : Definition}
    (member : TestClass all definition) : definition ∈ all := by
  cases member with
  | seed inAll _ _ => exact inAll
  | step inAll _ _ _ => exact inAll

theorem TestClass.hasSuperclass {all : List Definition}
    {definition : Definition} (member : TestClass all definition) :
    ∃ superclass, HasSuperclass definition superclass := by
  cases member with
  | seed _ known _ => exact ⟨_, known⟩
  | step _ known _ _ => exact ⟨_, known⟩

private theorem isTestName_iff (name : String) :
    isTestName name = true ↔
      "test".toList <+: name.toList ∧ name ≠ "testFoo" := by
  unfold isTestName
  rw [Bool.and_eq_true, List.isPrefixOf_iff_prefix, bne_iff_ne]
  exact Iff.rfl

/-- A test of a definition: its dotted name, a separator, and the name of one
of its virtual methods. -/
def HasTest (definition : Definition) (test : String) : Prop :=
  ∃ descriptor path members method name,
    HasDescriptor definition descriptor ∧
    Descriptor.HasPath descriptor path ∧
    definition.segment.classData definition.classDef = .ok members ∧
    method ∈ members.virtualMethods ∧
    definition.segment.methodName method.method = .ok name ∧
    "test".toList <+: name.toList ∧ name ≠ "testFoo" ∧
    test = String.ofList (path.map Descriptor.dotted) ++ "#" ++ name

def DefinesTest (all : List Definition) (test : String) : Prop :=
  ∃ definition, TestClass all definition ∧ HasTest definition test

def Broken (definition : Definition) : Prop :=
  (∃ fault, definition.segment.classDescriptor definition.classDef =
    .error fault) ∨
  (∃ descriptor, HasDescriptor definition descriptor ∧
    ¬ ∃ path, Descriptor.HasPath descriptor path) ∨
  (∃ fault, definition.segment.classData definition.classDef =
    .error fault) ∨
  (∃ members, definition.segment.classData definition.classDef =
      .ok members ∧
    ∃ method ∈ members.virtualMethods, ∃ fault,
      definition.segment.methodName method.method = .error fault)

def Unreadable (all : List Definition) : Prop :=
  (∃ definition ∈ all, ∃ fault,
    definition.segment.superclassDescriptor? definition.classDef =
      .error fault) ∨
  (∃ definition, TestClass all definition ∧ Broken definition)

/-! ### Tests of one class -/

theorem testsOf_eq_ok_iff (definition : Definition)
    (tests : List TestMethod) :
    testsOf definition = .ok tests ↔
      ∃ descriptor path members names,
        HasDescriptor definition descriptor ∧
        Descriptor.HasPath descriptor path ∧
        definition.segment.classData definition.classDef = .ok members ∧
        members.virtualMethodIndices.mapM definition.segment.methodName =
          .ok names ∧
        tests = (names.filter isTestName).map fun name =>
          { testName := TestName.ofParts
              (String.ofList (path.map Descriptor.dotted)) name
            annotations := [] } := by
  unfold testsOf
  constructor
  · intro found
    obtain ⟨className, named, listed⟩ := bind_eq_ok_iff.mp found
    obtain ⟨methods, indexed, rest⟩ := bind_eq_ok_iff.mp listed
    obtain ⟨names, read, kept⟩ := bind_eq_ok_iff.mp rest
    obtain ⟨descriptor, described, formed⟩ := bind_eq_ok_iff.mp named
    obtain ⟨members, given, mapped⟩ := bind_eq_ok_iff.mp indexed
    obtain ⟨path, whole, dotted⟩ :=
      (Descriptor.className_eq_ok_iff _ _).mp formed
    subst dotted
    cases mapped
    cases kept
    exact ⟨descriptor, path, members, names, described, whole, given, read,
      rfl⟩
  · intro ⟨descriptor, path, members, names, described, whole, given, read,
      same⟩
    have named : definition.segment.className definition.classDef.classType =
        .ok (String.ofList (path.map Descriptor.dotted)) :=
      bind_eq_ok_iff.mpr ⟨descriptor, described,
        (Descriptor.className_eq_ok_iff _ _).mpr ⟨path, whole, rfl⟩⟩
    have indexed : definition.segment.virtualMethodIndices
        definition.classDef = .ok members.virtualMethodIndices :=
      bind_eq_ok_iff.mpr ⟨members, given, rfl⟩
    refine bind_eq_ok_iff.mpr ⟨_, named, ?_⟩
    refine bind_eq_ok_iff.mpr ⟨_, indexed, ?_⟩
    refine bind_eq_ok_iff.mpr ⟨names, read, ?_⟩
    rw [same]
    rfl

theorem HasDescriptor.unique {definition : Definition}
    {left right : String} (first : HasDescriptor definition left)
    (second : HasDescriptor definition right) : left = right := by
  unfold HasDescriptor at first second
  rw [first] at second
  cases second
  rfl

theorem HasSuperclass.unique {definition : Definition}
    {left right : String} (first : HasSuperclass definition left)
    (second : HasSuperclass definition right) : left = right :=
  Option.some.inj (Except.ok.inj (first.symm.trans second))

theorem mem_testsOf {definition : Definition} {tests : List TestMethod}
    (found : testsOf definition = .ok tests) (test : TestMethod) :
    test ∈ tests ↔
      test.annotations = [] ∧ HasTest definition test.testName := by
  obtain ⟨descriptor, path, members, names, described, whole, given, read,
    same⟩ := (testsOf_eq_ok_iff definition tests).mp found
  have named (name : String) : name ∈ names ↔
      ∃ method ∈ members.virtualMethods,
        definition.segment.methodName method.method = .ok name := by
    rw [mem_of_mapM_eq_ok read]
    simp [ClassData.virtualMethodIndices]
  subst same
  constructor
  · intro member
    obtain ⟨name, kept, same⟩ := List.mem_map.mp member
    obtain ⟨inNames, testNamed⟩ := List.mem_filter.mp kept
    obtain ⟨starts, notPlaceholder⟩ := (isTestName_iff name).mp testNamed
    obtain ⟨method, listed, readName⟩ := (named name).mp inNames
    subst same
    exact ⟨rfl, descriptor, path, members, method, name, described, whole,
      given, listed, readName, starts, notPlaceholder, rfl⟩
  · intro ⟨bare, otherDescriptor, otherPath, otherMembers, method, name,
      otherDescribed, otherWhole, otherGiven, listed, readName, starts,
      notPlaceholder, same⟩
    have sameDescriptor := otherDescribed.unique described
    subst sameDescriptor
    have samePath := otherWhole.unique whole
    subst samePath
    rw [given] at otherGiven
    cases otherGiven
    refine List.mem_map.mpr ⟨name, List.mem_filter.mpr
      ⟨(named name).mpr ⟨method, listed, readName⟩,
        (isTestName_iff name).mpr ⟨starts, notPlaceholder⟩⟩, ?_⟩
    cases test with
    | mk testName annotations =>
        subst bare same
        rfl

theorem not_broken {definition : Definition} {tests : List TestMethod}
    (found : testsOf definition = .ok tests) : ¬ Broken definition := by
  obtain ⟨descriptor, path, members, names, described, whole, given, read,
    _⟩ := (testsOf_eq_ok_iff definition tests).mp found
  intro broken
  rcases broken with ⟨fault, noDescriptor⟩ | ⟨other, otherDescribed, noPath⟩ |
    ⟨fault, noMembers⟩ | ⟨otherMembers, otherGiven, method, listed, fault,
      noName⟩
  · unfold HasDescriptor at described
    rw [described] at noDescriptor
    cases noDescriptor
  · have sameDescriptor := otherDescribed.unique described
    subst sameDescriptor
    exact noPath ⟨path, whole⟩
  · rw [given] at noMembers
    cases noMembers
  · rw [given] at otherGiven
    cases otherGiven
    obtain ⟨failure, failed⟩ := mapM_fails_iff.mpr
      ⟨method.method, List.mem_map_of_mem listed, fault, noName⟩
    rw [ClassData.virtualMethodIndices, failed] at read
    cases read

private theorem broken_of_testsOf {definition : Definition} {fault : Fault}
    (failed : testsOf definition = .error fault) : Broken definition := by
  cases described :
      definition.segment.classDescriptor definition.classDef with
  | error fault => exact Or.inl ⟨fault, described⟩
  | ok descriptor =>
      refine Or.inr ?_
      by_cases hasPath : ∃ path, Descriptor.HasPath descriptor path
      · refine Or.inr ?_
        rcases hasPath with ⟨path, whole⟩
        cases given : definition.segment.classData definition.classDef with
        | error fault => exact Or.inl ⟨fault, rfl⟩
        | ok members =>
            refine Or.inr ⟨members, rfl, ?_⟩
            cases read : members.virtualMethodIndices.mapM
                definition.segment.methodName with
            | error fault =>
                obtain ⟨index, listed, unreadable⟩ :=
                  mapM_fails_iff.mp ⟨fault, read⟩
                obtain ⟨method, member, same⟩ := List.mem_map.mp listed
                subst same
                exact ⟨method, member, unreadable⟩
            | ok names =>
                have found := (testsOf_eq_ok_iff definition _).mpr
                  ⟨descriptor, path, members, names, described, whole,
                    given, read, rfl⟩
                rw [found] at failed
                cases failed
      · exact Or.inl ⟨descriptor, described, hasPath⟩

/-- What a scan reads of a definition when it stops there, and what the error
tells of it. -/
inductive StopsAt (all : List Definition) (definition : Definition) :
    DexError → Prop
  | superclass {fault : Fault} :
      definition ∈ all →
      definition.segment.superclassDescriptor? definition.classDef =
        .error fault →
      StopsAt all definition (.bare fault)
  | descriptor {fault : Fault} :
      TestClass all definition →
      definition.segment.classDescriptor definition.classDef = .error fault →
      StopsAt all definition (.bare fault)
  | tests {descriptor : String} {fault : Fault} :
      TestClass all definition → HasDescriptor definition descriptor →
      testsOf definition = .error fault →
      StopsAt all definition (definition.faultInClass descriptor fault)

namespace StopsAt

variable {all : List Definition} {definition : Definition} {error : DexError}

theorem mem (stops : StopsAt all definition error) : definition ∈ all := by
  cases stops with
  | superclass member _ => exact member
  | descriptor testClass _ => exact testClass.mem
  | tests testClass _ _ => exact testClass.mem

theorem unreadable (stops : StopsAt all definition error) :
    Unreadable all := by
  cases stops with
  | superclass member failed => exact Or.inl ⟨definition, member, _, failed⟩
  | descriptor testClass failed =>
      exact Or.inr ⟨definition, testClass, Or.inl ⟨_, failed⟩⟩
  | tests testClass _ failed =>
      exact Or.inr ⟨definition, testClass, broken_of_testsOf failed⟩

end StopsAt

end JUnit3
end DexCensus
