/-
When resolving meets a cycle.

A class is grounded if no line of ancestors above it goes on for ever.  Marks
that stay behind between two calls are those of grounded classes, so a class
that was resolved earlier is never taken for its own ancestor.  A climb ends
with an error only at a class that it has climbed through itself, and that
class is then on a cycle; the class where the climb began may stand below it.
-/

import DexCensus.Proofs.JUnit4.Completion
import DexCensus.Proofs.JUnit4.Survey
import DexCensus.Proofs.PlainString
import DexCensus.Proofs.TestName

namespace DexCensus
namespace JUnit4

open Dex

variable {table : ClassTable}

def Grounded (table : ClassTable) (position : Fin table.size) : Prop :=
  Acc table.IsParent position

private theorem ClassTable.IsParent.unique {left right child : Fin table.size}
    (first : table.IsParent left child) (second : table.IsParent right child) :
    left = right :=
  table.eq_of_name_eq (Option.some.inj (first.symm.trans second))

private theorem grounded_of_root {position : Fin table.size}
    (root : table.parent? position = none) : Grounded table position := by
  constructor
  intro parent edge
  rw [(table.parent?_eq_some_iff parent position).mpr edge] at root
  cases root

theorem Grounded.child {parent child : Fin table.size}
    (grounded : Grounded table parent) (edge : table.IsParent parent child) :
    Grounded table child := by
  constructor
  intro other otherEdge
  rw [otherEdge.unique edge]
  exact grounded

private theorem Grounded.line {chain : List (Fin table.size)} :
    ∀ {position : Fin table.size}, Grounded table position →
      List.IsChain table.IsParent (position :: chain) →
      ∀ other ∈ chain, Grounded table other := by
  induction chain with
  | nil => simp
  | cons child rest ih =>
      intro position grounded linked other member
      obtain ⟨edge, linkedRest⟩ := List.isChain_cons_cons.mp linked
      have childGrounded := grounded.child edge
      rcases List.mem_cons.mp member with here | below
      · rw [here]
        exact childGrounded
      · exact ih childGrounded linkedRest other below

private theorem Grounded.ancestor {ancestor position : Fin table.size}
    (grounded : Grounded table position)
    (line : Relation.ReflTransGen table.IsParent ancestor position) :
    Grounded table ancestor := by
  induction line with
  | refl => exact grounded
  | tail _ edge ih => exact ih (grounded.inv edge)

theorem Grounded.not_own_ancestor {position : Fin table.size}
    (grounded : Grounded table position) :
    ¬ Relation.TransGen table.IsParent position position := by
  have ancestry : Acc (Relation.TransGen table.IsParent) position :=
    grounded.transGen
  induction ancestry with
  | intro position _ ih =>
      intro cycle
      exact ih position cycle grounded cycle

private theorem acyclic_of_grounded
    (grounded : ∀ position, Grounded table position) : table.Acyclic :=
  fun position => (grounded position).not_own_ancestor

/-- During a climb only classes of the chain are in progress, and a class that
is done is grounded.  With an empty chain this is what holds between calls. -/
structure Ascending (marks : Marks table) (chain : List (Fin table.size)) :
    Prop where
  inChain : ∀ position, marks.get position = .inProgress → position ∈ chain
  grounded : ∀ position tests, marks.get position = .done tests →
    Grounded table position

theorem ascending_initial : Ascending (Marks.initial table) [] := by
  have unvisited (position : Fin table.size) :
      (Marks.initial table).get position = .unvisited :=
    Vector.getElem_replicate position.isLt
  constructor
  case inChain =>
    intro position seen
    rw [unvisited] at seen
    cases seen
  case grounded =>
    intro position tests seen
    rw [unvisited] at seen
    cases seen

private theorem Ascending.climb {marks : Marks table}
    {chain : List (Fin table.size)}
    (ascending : Ascending marks chain) (position : Fin table.size) :
    Ascending (marks.set position .inProgress position.isLt)
      (position :: chain) := by
  constructor
  case inChain =>
    intro other seen
    by_cases here : other = position
    · exact here ▸ List.mem_cons_self
    · rw [get_set, if_neg here] at seen
      exact List.mem_cons_of_mem position (ascending.inChain other seen)
  case grounded =>
    intro other tests seen
    by_cases here : other = position
    · simp [here] at seen
    · rw [get_set, if_neg here] at seen
      exact ascending.grounded other tests seen

private theorem Ascending.finish {marks : Marks table}
    {chain : List (Fin table.size)}
    {position : Fin table.size} (ascending : Ascending marks (position :: chain))
    (grounded : Grounded table position) (tests : List TestMethod) :
    Ascending (marks.set position (.done tests) position.isLt) chain := by
  constructor
  case inChain =>
    intro other seen
    by_cases here : other = position
    · simp [here] at seen
    · rw [get_set, if_neg here] at seen
      exact (List.mem_cons.mp (ascending.inChain other seen)).resolve_left here
  case grounded =>
    intro other found seen
    by_cases here : other = position
    · rw [here]
      exact grounded
    · rw [get_set, if_neg here] at seen
      exact ascending.grounded other found seen

private theorem Ascending.descend {chain : List (Fin table.size)} :
    ∀ {marks : Marks table} (inherited : List TestMethod),
      Ascending marks chain →
      (∀ position ∈ chain, Grounded table position) →
      Ascending (JUnit4.descend table chain marks inherited).1 [] := by
  induction chain with
  | nil =>
      intro marks inherited ascending _
      exact ascending
  | cons position rest ih =>
      intro marks inherited ascending grounded
      obtain ⟨here, below⟩ := List.forall_mem_cons.mp grounded
      exact ih _ (ascending.finish here _) below

private theorem climb_of_inProgress {marks : Marks table}
    {position : Fin table.size}
    (seen : marks.get position = .inProgress)
    (chain : List (Fin table.size)) :
    climb table marks chain position =
      .error (ownAncestorFault (table.get position)) := by
  have marked : marks[position] = .inProgress := seen
  rw [climb]
  split <;> simp_all

/-- A fault tells of a class that is its own ancestor and an ancestor, or the
class itself, of the one at `position`. -/
def TellsCycleAbove (position : Fin table.size) (fault : Fault) : Prop :=
  ∃ ancestor, fault = ownAncestorFault (table.get ancestor) ∧
    Relation.ReflTransGen table.IsParent ancestor position ∧
    Relation.TransGen table.IsParent ancestor ancestor

private theorem climb_cases (marks : Marks table)
    (chain : List (Fin table.size))
    (position : Fin table.size) :
    Ascending marks chain →
    List.IsChain table.IsParent (position :: chain) →
    (∃ climbed, climb table marks chain position = .ok climbed ∧
      Grounded table position ∧
      Ascending climbed.marks climbed.chain ∧
      ∀ other ∈ climbed.chain, Grounded table other) ∨
    (∃ fault, climb table marks chain position = .error fault ∧
      TellsCycleAbove position fault) := by
  induction marks, chain, position using climb.induct with
  | case1 marks chain position tests marked =>
      intro ascending linked
      have seen : marks.get position = .done tests := marked
      have grounded := ascending.grounded position tests seen
      exact Or.inl ⟨_, climb_of_done seen chain, grounded, ascending,
        grounded.line linked⟩
  | case2 marks chain position marked =>
      intro ascending linked
      have seen : marks.get position = .inProgress := marked
      have ancestry : List.IsChain (Relation.TransGen table.IsParent)
          (position :: chain) :=
        linked.imp fun _ _ edge => Relation.TransGen.single edge
      have cycle := ancestry.rel_cons (ascending.inChain position seen)
      refine Or.inr ⟨_, climb_of_inProgress seen chain, position, rfl, ?_,
        cycle⟩
      exact Relation.ReflTransGen.refl
  | case3 marks chain position seen root =>
      intro ascending linked
      have grounded := grounded_of_root root
      refine Or.inl ⟨_, climb_of_root seen root chain, grounded,
        ascending.climb position, ?_⟩
      exact List.forall_mem_cons.mpr ⟨grounded, grounded.line linked⟩
  | case4 marks chain position seen parent found ih =>
      intro ascending linked
      have edge := (table.parent?_eq_some_iff parent position).mp found
      rw [climb_of_parent seen found]
      rcases ih (ascending.climb position) (List.IsChain.cons_cons edge linked)
        with ⟨climbed, arrived, grounded, still, allGrounded⟩ |
          ⟨fault, failed, ancestor, tells, line, cycle⟩
      · exact Or.inl ⟨climbed, arrived, grounded.child edge, still,
          allGrounded⟩
      · exact Or.inr ⟨fault, failed, ancestor, tells, line.tail edge, cycle⟩

theorem resolve_cases {marks : Marks table} (ascending : Ascending marks [])
    (position : Fin table.size) :
    (∃ next tests, resolve table marks position = .ok (next, tests) ∧
      Ascending next [] ∧ Grounded table position) ∨
    (∃ fault, resolve table marks position = .error fault ∧
      TellsCycleAbove position fault) := by
  unfold resolve
  rcases climb_cases marks [] position ascending
    (List.isChain_singleton position) with
      ⟨climbed, arrived, grounded, still, allGrounded⟩ | ⟨fault, failed, tells⟩
  · rw [arrived]
    exact Or.inl ⟨_, _, rfl, still.descend climbed.inherited allGrounded,
      grounded⟩
  · rw [failed]
    exact Or.inr ⟨fault, rfl, tells⟩

private theorem Reachable.ascending {marks : Marks table}
    (reachable : Reachable table marks) : Ascending marks [] := by
  induction reachable with
  | initial => exact ascending_initial
  | @resolve marks next position tests before ran ih =>
      rcases resolve_cases ih position with
        ⟨after, found, resolved, still, _⟩ | ⟨fault, failed, _⟩
      · rw [resolved] at ran
        cases ran
        exact still
      · rw [failed] at ran
        cases ran

private theorem resolve_fails_iff {marks : Marks table}
    (reachable : Reachable table marks) (position : Fin table.size) :
    (∃ fault, resolve table marks position = .error fault) ↔
      ∃ ancestor, Relation.ReflTransGen table.IsParent ancestor position ∧
        Relation.TransGen table.IsParent ancestor ancestor := by
  rcases resolve_cases reachable.ascending position with
    ⟨next, tests, resolved, _, grounded⟩ |
      ⟨fault, failed, ancestor, _, line, cycle⟩
  · rw [resolved]
    constructor
    · intro ⟨fault, impossible⟩
      cases impossible
    · intro ⟨ancestor, line, cycle⟩
      exact ((grounded.ancestor line).not_own_ancestor cycle).elim
  · constructor
    · intro _
      exact ⟨ancestor, line, cycle⟩
    · intro _
      exact ⟨fault, failed⟩

private theorem foldlM_gather_cases (positions : List (Fin table.size)) :
    ∀ gathered : Harvest table, Ascending gathered.marks [] →
      (∃ last, positions.foldlM Harvest.gather gathered = .ok last ∧
        ∀ position ∈ positions, Grounded table position) ∨
      (∃ fault, positions.foldlM Harvest.gather gathered = .error fault ∧
        ∃ position : Fin table.size, TellsCycleAbove position fault) := by
  induction positions with
  | nil =>
      intro gathered _
      exact Or.inl ⟨gathered, rfl, by simp⟩
  | cons position rest ih =>
      intro gathered ascending
      rw [List.foldlM_cons]
      rcases resolve_cases ascending position with
        ⟨next, tests, resolved, still, grounded⟩ | ⟨fault, failed, tells⟩
      · obtain ⟨after, gatheredNext, sameMarks⟩ :
            ∃ after, gathered.gather position = .ok after ∧
              after.marks = next := by
          unfold Harvest.gather
          rw [resolved]
          by_cases concrete : (table.get position).isConcrete = true
          · simp only [if_pos concrete]
            exact ⟨_, rfl, rfl⟩
          · simp only [if_neg concrete]
            exact ⟨_, rfl, rfl⟩
        rw [gatheredNext]
        rcases ih after (sameMarks ▸ still) with ⟨last, ran, others⟩ |
          ⟨fault, failed, tells⟩
        · exact Or.inl ⟨last, ran,
            List.forall_mem_cons.mpr ⟨grounded, others⟩⟩
        · exact Or.inr ⟨fault, failed, tells⟩
      · have gatheredError : gathered.gather position = .error fault := by
          unfold Harvest.gather
          rw [failed]
        rw [gatheredError]
        exact Or.inr ⟨fault, rfl, position, tells⟩

theorem harvest_cases (table : ClassTable) :
    ((∃ tests, harvest table = .ok tests) ∧ table.Acyclic) ∨
    (∃ position, harvest table =
        .error (ownAncestorFault (table.get position)) ∧
      Relation.TransGen table.IsParent position position) := by
  unfold harvest
  rcases foldlM_gather_cases (List.finRange table.size)
    { marks := Marks.initial table, tests := #[] } ascending_initial with
      ⟨last, ran, grounded⟩ | ⟨fault, failed, _, ancestor, tells, _, cycle⟩
  · rw [ran]
    exact Or.inl ⟨⟨_, rfl⟩, acyclic_of_grounded fun position =>
      grounded position (List.mem_finRange position)⟩
  · rw [failed, tells]
    exact Or.inr ⟨ancestor, rfl, cycle⟩

/-! ### Whole packages -/

/-- If all classes can be summarized, discovery succeeds unless some kept
definition is its own ancestor, and the error then names such a definition. -/
theorem findTests_cases (markers : List String)
    (segments : List IndexedSegment)
    (readable : ∀ definition ∈ classDefinitions segments, ∃ summary,
      summarize markers definition = .ok summary) :
    ((∃ tests, findTests markers segments = .ok tests) ∧
      ¬ ∃ definition, Relation.TransGen
        (KeptParent (classDefinitions segments)) definition definition) ∨
    (∃ definition name,
      findTests markers segments = .error (.bare (.ownAncestor
        (TestName.withoutTrailingSeparators name)
        definition.classDef.classType)) ∧
      HasName definition name ∧
      Relation.TransGen (KeptParent (classDefinitions segments)) definition
        definition) := by
  unfold findTests discover
  rcases Survey.ofSegments_cases markers segments with
    ⟨survey, surveyed, represents⟩ | ⟨_, error, _, definition, member, failed⟩
  · rw [surveyed]
    simp only [testsOfSurvey]
    rcases harvest_cases survey.table with
      ⟨⟨tests, harvested⟩, acyclic⟩ | ⟨position, failed, cycle⟩
    · rw [harvested]
      refine Or.inl ⟨⟨tests, rfl⟩, ?_⟩
      rintro ⟨definition, cycle⟩
      obtain ⟨_, _, edge⟩ := Relation.TransGen.tail'_iff.mp cycle
      obtain ⟨position, stands⟩ := represents.exists_position edge.childKept
      exact acyclic position ((represents.ancestor_iff stands stands).mpr cycle)
    · rw [failed]
      obtain ⟨definition, stands⟩ := represents.exists_definition position
      refine Or.inr ⟨definition, (survey.table.get position).name, ?_,
        stands.summarizes.name,
        (represents.ancestor_iff stands stands).mp cycle⟩
      rw [← stands.summarizes.classType]
      rfl
  · obtain ⟨summary, found⟩ := readable definition member
    rw [failed] at found
    cases found

theorem findTests_of_one_generation {markers : List String}
    {segments : List IndexedSegment}
    (readable : ∀ definition ∈ classDefinitions segments, ∃ summary,
      summarize markers definition = .ok summary)
    (oneGeneration : ∀ parent child grandchild,
      KeptParent (classDefinitions segments) parent child →
        ¬ KeptParent (classDefinitions segments) child grandchild) :
    ∃ tests, findTests markers segments = .ok tests := by
  rcases findTests_cases markers segments readable with
    ⟨found, _⟩ | ⟨definition, _, _, _, cycle⟩
  · exact found
  · obtain ⟨_, first, _⟩ := Relation.TransGen.head'_iff.mp cycle
    obtain ⟨_, _, last⟩ := Relation.TransGen.tail'_iff.mp cycle
    exact (oneGeneration _ _ _ last first).elim

private theorem message_ownAncestor (name : String) (index : UInt32) :
    (DexError.bare (.ownAncestor name index)).message =
      "cyclic class hierarchy: class " ++ name ++
        " is its own ancestor (class_idx " ++ toString index.toNat ++ ")" := by
  have front : FaultKind.cyclicHierarchy.label ++ ": " ++ "class " =
      "cyclic class hierarchy: class " := by decide
  rw [← front]
  change _ ++ _ ++ (_ ++ _ ++ _ ++ _ ++ _) ++ "" = _
  simp only [String.append_assoc, String.append_empty]
  rfl

/-- Cycles are found exactly.  If all classes can be summarized, discovery
fails with a cyclic hierarchy if and only if some kept definition is its own
ancestor, and succeeds otherwise; the text of the error gives the name and the
class index of a definition that is its own ancestor.  Whatever classes were
resolved before, resolving one fails only if it or an ancestor of it is its own
ancestor. -/
theorem findTests_cyclic_iff_own_ancestor (markers : List String)
    (segments : List IndexedSegment)
    (readable : ∀ definition ∈ classDefinitions segments, ∃ summary,
      summarize markers definition = .ok summary) :
    ((∃ error, findTests markers segments = .error error ∧
        error.kind = .cyclicHierarchy) ↔
      ∃ definition, Relation.TransGen (KeptParent (classDefinitions segments))
        definition definition) ∧
    ((¬ ∃ definition, Relation.TransGen
        (KeptParent (classDefinitions segments)) definition definition) →
      ∃ tests, findTests markers segments = .ok tests) ∧
    (∀ error, findTests markers segments = .error error →
      ∃ definition name,
        error = .bare (.ownAncestor (TestName.withoutTrailingSeparators name)
          definition.classDef.classType) ∧
        error.message = "cyclic class hierarchy: class " ++
          TestName.withoutTrailingSeparators name ++
          " is its own ancestor (class_idx " ++
          toString definition.classDef.classType.toNat ++ ")" ∧
        HasName definition name ∧
        (name.toList.getLast? ≠ some TestName.separator →
          TestName.withoutTrailingSeparators name = name) ∧
        Relation.TransGen (KeptParent (classDefinitions segments)) definition
          definition) ∧
    (∀ survey, Survey.ofSegments markers segments = (survey, none) →
      ∀ marks, Reachable survey.table marks → ∀ position definition,
        StandsAt markers (classDefinitions segments) survey.table position
          definition →
        ((∃ fault, resolve survey.table marks position = .error fault) ↔
          ∃ ancestor,
            Relation.ReflTransGen (KeptParent (classDefinitions segments))
              ancestor definition ∧
            Relation.TransGen (KeptParent (classDefinitions segments))
              ancestor ancestor)) := by
  refine ⟨?_, ?_, ?_, ?_⟩
  · rcases findTests_cases markers segments readable with
      ⟨⟨tests, found⟩, noCycle⟩ | ⟨definition, name, failed, _, cycle⟩
    · rw [found]
      constructor
      · intro ⟨error, impossible, _⟩
        cases impossible
      · intro cycle
        exact (noCycle cycle).elim
    · constructor
      · intro _
        exact ⟨definition, cycle⟩
      · intro _
        exact ⟨_, failed, rfl⟩
  · intro noCycle
    rcases findTests_cases markers segments readable with
      ⟨succeeds, _⟩ | ⟨definition, _, _, _, cycle⟩
    · exact succeeds
    · exact (noCycle ⟨definition, cycle⟩).elim
  · intro error failed
    rcases findTests_cases markers segments readable with
      ⟨⟨tests, found⟩, _⟩ | ⟨definition, name, tells, named, cycle⟩
    · rw [found] at failed
      cases failed
    · rw [tells] at failed
      cases failed
      exact ⟨definition, name, rfl, message_ownAncestor _ _, named,
        TestName.withoutTrailingSeparators_eq_self, cycle⟩
  · intro survey surveyed marks reachable position definition stands
    have represents := Survey.represents_of_ofSegments surveyed
    rw [resolve_fails_iff reachable position]
    exact represents.cycle_above_iff stands

/-! ### A class below a loop of two -/

/-- A public class with a superclass and nothing else. -/
def bareClass (type superclass : UInt32) : ClassDef :=
  { classType := type
    accessFlags := 1
    superclassType := superclass
    interfacesOffset := 0
    sourceFile := noIndex
    annotationsOffset := 0
    classDataOffset := 0
    staticValuesOffset := 0 }

def emptyExtent : Extent :=
  { size := 0, offset := 0 }

def blankHeader : Header :=
  { magic := [0x64, 0x65, 0x78, 0x0a, 0x30, 0x33, 0x35, 0]
    version := 35
    checksum := 0
    signature := List.replicate 20 0
    fileSize := 0
    headerSize := 112
    endianTag := endianTag
    link := emptyExtent
    mapOffset := 0
    stringIds := emptyExtent
    typeIds := emptyExtent
    protoIds := emptyExtent
    fieldIds := emptyExtent
    methodIds := emptyExtent
    classDefs := emptyExtent
    data := emptyExtent }

/-- The descriptors `LA;`, `LB;` and `LC;`. -/
def threeDescriptors : Bytes :=
  #[3, 0x4c, 0x41, 0x3b, 0, 3, 0x4c, 0x42, 0x3b, 0, 3, 0x4c, 0x43, 0x3b, 0]

def threeTypes (classDefs : Array ClassDef) : Segment :=
  { header := blankHeader
    strings := #[0, 5, 10]
    types := #[0, 1, 2]
    prototypes := #[]
    fields := #[]
    methods := #[]
    classDefs := classDefs
    data := threeDescriptors }

theorem threeTypes_className (classDefs : Array ClassDef) :
    (threeTypes classDefs).className 0 = .ok "A" ∧
    (threeTypes classDefs).className 1 = .ok "B" ∧
    (threeTypes classDefs).className 2 = .ok "C" := by
  have described (index offset : UInt32) (start : Nat) (text : String)
      (listed : Segment.entry .types (threeTypes classDefs).types index =
        .ok index)
      (found : Segment.entry .strings (threeTypes classDefs).strings index =
        .ok offset)
      (counted : Reader.uleb128 threeDescriptors offset.toNat = .ok (3, start))
      (stands : text.toList.map plainByte ++ [0] <+:
        threeDescriptors.toList.drop start)
      (plain : IsPlain text.toList) :
      (threeTypes classDefs).typeDescriptor index = .ok text :=
    typeDescriptor_of_plain listed found counted stands plain
  have first := described 0 0 1 "LA;" rfl rfl rfl (by decide) (by decide)
  have second := described 1 5 6 "LB;" rfl rfl rfl (by decide) (by decide)
  have third := described 2 10 11 "LC;" rfl rfl rfl (by decide) (by decide)
  exact ⟨bind_eq_ok_iff.mpr ⟨_, first, by decide⟩,
    bind_eq_ok_iff.mpr ⟨_, second, by decide⟩,
    bind_eq_ok_iff.mpr ⟨_, third, by decide⟩⟩

def firstPart : IndexedSegment :=
  (threeTypes #[bareClass 2 0, bareClass 0 1]).indexed

def secondPart : IndexedSegment :=
  (threeTypes #[bareClass 1 0]).indexed

def tailClass : Definition :=
  { segmentNumber := 1, segment := firstPart, classDef := bareClass 2 0 }

def loopFirst : Definition :=
  { segmentNumber := 1, segment := firstPart, classDef := bareClass 0 1 }

def loopSecond : Definition :=
  { segmentNumber := 2, segment := secondPart, classDef := bareClass 1 0 }

theorem tailIntoLoop_definitions :
    classDefinitions [firstPart, secondPart] =
      [tailClass, loopFirst, loopSecond] := by
  rfl

theorem tailClass_named :
    HasName tailClass "C" ∧ HasSuperclassName tailClass "A" := by
  obtain ⟨first, _, third⟩ :=
    threeTypes_className #[bareClass 2 0, bareClass 0 1]
  exact ⟨third, hasSuperclassName_of_type 0 rfl first⟩

theorem loopFirst_named :
    HasName loopFirst "A" ∧ HasSuperclassName loopFirst "B" := by
  obtain ⟨first, second, _⟩ :=
    threeTypes_className #[bareClass 2 0, bareClass 0 1]
  exact ⟨first, hasSuperclassName_of_type 1 rfl second⟩

theorem loopSecond_named :
    HasName loopSecond "B" ∧ HasSuperclassName loopSecond "A" := by
  obtain ⟨first, second, _⟩ := threeTypes_className #[bareClass 1 0]
  exact ⟨second, hasSuperclassName_of_type 0 rfl first⟩

private theorem tailIntoLoop_readable :
    ∀ definition ∈ classDefinitions [firstPart, secondPart], ∃ summary,
      summarize [] definition = .ok summary := by
  have summarized {definition : Definition} {name superclass : String}
      (named : HasName definition name ∧
        HasSuperclassName definition superclass)
      (noDirectory : definition.classDef.annotationsOffset = 0) :
      ∃ summary, summarize [] definition = .ok summary :=
    ⟨_, (summarize_eq_ok_iff _ _).mpr
      (summarizes_of_no_directory named.1 named.2 noDirectory)⟩
  rw [tailIntoLoop_definitions, List.forall_mem_cons, List.forall_mem_cons,
    List.forall_mem_singleton]
  exact ⟨summarized tailClass_named rfl, summarized loopFirst_named rfl,
    summarized loopSecond_named rfl⟩

private theorem tailIntoLoop_distinct :
    DistinctNames (classDefinitions [firstPart, secondPart]) := by
  rw [tailIntoLoop_definitions, DistinctNames, List.pairwise_cons,
    List.pairwise_pair, List.forall_mem_cons, List.forall_mem_singleton]
  exact ⟨⟨tailClass_named.1.apart loopFirst_named.1 (by decide),
      tailClass_named.1.apart loopSecond_named.1 (by decide)⟩,
    loopFirst_named.1.apart loopSecond_named.1 (by decide)⟩

/-- The walk starts at `C`, which is on no cycle, and the error names a class
of the loop. -/
theorem tailIntoLoop_reports_loop :
    ∃ error, findTests [] [firstPart, secondPart] = .error error ∧
      (error = .bare (.ownAncestor "A" 0) ∧
          error.message = "cyclic class hierarchy: class A is its own " ++
            "ancestor (class_idx 0)" ∨
        error = .bare (.ownAncestor "B" 1) ∧
          error.message = "cyclic class hierarchy: class B is its own " ++
            "ancestor (class_idx 1)") := by
  obtain ⟨cyclicIff, _, reports, _⟩ := findTests_cyclic_iff_own_ancestor []
    [firstPart, secondPart] tailIntoLoop_readable
  have kept {definition : Definition}
      (member : definition ∈ [tailClass, loopFirst, loopSecond]) :
      Kept (classDefinitions [firstPart, secondPart]) definition :=
    tailIntoLoop_distinct.kept (tailIntoLoop_definitions ▸ member)
  have up : KeptParent (classDefinitions [firstPart, secondPart]) loopSecond
      loopFirst :=
    { parentKept := kept (by simp)
      childKept := kept (by simp)
      named := ⟨"B", loopSecond_named.1, loopFirst_named.2⟩ }
  have down : KeptParent (classDefinitions [firstPart, secondPart]) loopFirst
      loopSecond :=
    { parentKept := kept (by simp)
      childKept := kept (by simp)
      named := ⟨"A", loopFirst_named.1, loopSecond_named.2⟩ }
  obtain ⟨error, failed, _⟩ :=
    cyclicIff.mpr ⟨loopFirst, (Relation.TransGen.single down).tail up⟩
  obtain ⟨reported, name, same, told, named, _, cycle⟩ := reports error failed
  obtain ⟨child, edge, _⟩ := Relation.TransGen.head'_iff.mp cycle
  obtain ⟨superclass, reportedNamed, childNamed⟩ := edge.named
  -- No class of the package extends the one where the walk starts.
  have notTail : superclass ≠ "C" := by
    have member := edge.childKept.mem
    rw [tailIntoLoop_definitions] at member
    rcases List.mem_cons.mp member with rfl | member
    · rw [childNamed.unique tailClass_named.2]
      decide
    rcases List.mem_cons.mp member with rfl | member
    · rw [childNamed.unique loopFirst_named.2]
      decide
    · rw [List.mem_singleton.mp member] at childNamed
      rw [childNamed.unique loopSecond_named.2]
      decide
  have member := edge.parentKept.mem
  rw [tailIntoLoop_definitions] at member
  refine ⟨error, failed, ?_⟩
  rcases List.mem_cons.mp member with rfl | member
  · exact (notTail (reportedNamed.unique tailClass_named.1)).elim
  rcases List.mem_cons.mp member with rfl | member
  · rw [named.unique loopFirst_named.1] at same told
    exact Or.inl ⟨same, told.trans (by decide)⟩
  · rw [List.mem_singleton.mp member] at named same told
    rw [named.unique loopSecond_named.1] at same told
    exact Or.inr ⟨same, told.trans (by decide)⟩

end JUnit4
end DexCensus
