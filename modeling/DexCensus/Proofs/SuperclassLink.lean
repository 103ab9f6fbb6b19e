/-
How classes are linked to their superclasses.

A JUnit3 search knows bases by descriptor.  JUnit4 discovery looks a superclass
up by its dotted name, in a table that has one entry for each dotted name.  If
no descriptor of a class or of a superclass has a dot, a dotted name stands for
one descriptor, and both follow the same links.
-/

import DexCensus.Proofs.JUnit3.Rescanning
import DexCensus.Proofs.JUnit4.Redefinition

namespace DexCensus

open Dex JUnit3 JUnit4

def Definition.IsSubclass (child base : Definition) : Prop :=
  ∃ descriptor, HasSuperclass child descriptor ∧ HasDescriptor base descriptor

structure Definition.Dotless (definition : Definition) : Prop where
  own : ∀ descriptor, HasDescriptor definition descriptor →
    '.' ∉ descriptor.toList
  superclass : ∀ descriptor, HasSuperclass definition descriptor →
    '.' ∉ descriptor.toList

namespace JUnit3

private theorem examine_eq_pass_iff {scan : Scan} {definition : Definition} :
    scan.examine definition = .ok (scan.pass definition) ↔
      (∃ superclass, definition.segment.superclassDescriptor?
        definition.classDef = .ok superclass) ∧
      ∀ superclass, HasSuperclass definition superclass →
        superclass ∉ scan.search.bases := by
  constructor
  · intro passed
    refine ⟨?_, no_base_of_passed passed⟩
    cases known :
        definition.segment.superclassDescriptor? definition.classDef with
    | error fault =>
        rw [Scan.examine, known] at passed
        cases passed
    | ok superclass => exact ⟨superclass, rfl⟩
  · intro ⟨⟨superclass, known⟩, noBase⟩
    rw [Scan.examine, known]
    cases superclass with
    | none => rfl
    | some superclass => exact if_neg (noBase superclass known)

private theorem examine_eq_pass_of_admitClass_iff (scan : Scan)
    {child base : Definition} {descriptor : String}
    (described : HasDescriptor base descriptor) (tests : List TestMethod) :
    (scan.admitClass descriptor tests).examine child =
        .ok ((scan.admitClass descriptor tests).pass child) ↔
      scan.examine child = .ok (scan.pass child) ∧ ¬ child.IsSubclass base := by
  rw [examine_eq_pass_iff, examine_eq_pass_iff, and_assoc]
  refine and_congr_right fun _ => ?_
  simp only [mem_admitClass_bases, not_or]
  constructor
  · intro noBase
    refine ⟨fun superclass known => (noBase superclass known).1, ?_⟩
    intro subclass
    obtain ⟨superclass, known, baseDescribed⟩ := subclass
    exact (noBase superclass known).2 (baseDescribed.unique described)
  · intro passes superclass known
    obtain ⟨noBase, apart⟩ := passes
    refine ⟨noBase superclass known, ?_⟩
    intro same
    exact apart ⟨superclass, known, same ▸ described⟩

end JUnit3

namespace JUnit4

variable {child base definition : Definition} {name : String}

theorem hasName_iff :
    HasName definition name ↔ ∃ descriptor,
      HasDescriptor definition descriptor ∧
        Descriptor.className descriptor = .ok name :=
  bind_eq_ok_iff

theorem hasSuperclassName_iff :
    HasSuperclassName definition name ↔ ∃ descriptor,
      HasSuperclass definition descriptor ∧
        Descriptor.className descriptor = .ok name := by
  constructor
  · intro named
    obtain ⟨superclass, known, formed⟩ := bind_eq_ok_iff.mp named
    cases superclass with
    | none => cases formed
    | some descriptor =>
        obtain ⟨other, otherFormed, same⟩ := bind_eq_ok_iff.mp formed
        cases same
        exact ⟨descriptor, known, otherFormed⟩
  · intro ⟨descriptor, known, formed⟩
    exact bind_eq_ok_iff.mpr ⟨some descriptor, known,
      bind_eq_ok_iff.mpr ⟨name, formed, rfl⟩⟩

theorem HasName.exists_descriptor_iff (named : HasName base name)
    (dotless : base.Dotless) {known : String → Prop}
    (noDots : ∀ descriptor, known descriptor → '.' ∉ descriptor.toList) :
    (∃ descriptor, known descriptor ∧
        Descriptor.className descriptor = .ok name) ↔
      ∃ descriptor, known descriptor ∧ HasDescriptor base descriptor := by
  obtain ⟨own, described, formed⟩ := hasName_iff.mp named
  constructor
  · intro ⟨descriptor, isKnown, sameName⟩
    have same := Descriptor.className_injective sameName formed
      (noDots descriptor isKnown) (dotless.own own described)
    exact ⟨own, same ▸ isKnown, described⟩
  · intro ⟨descriptor, isKnown, baseDescribed⟩
    have same := baseDescribed.unique described
    exact ⟨own, same ▸ isKnown, formed⟩

private theorem HasName.hasName_iff_of_dotless (named : HasName base name)
    (baseDotless : base.Dotless) (dotless : definition.Dotless) :
    HasName definition name ↔ ∃ descriptor,
      HasDescriptor definition descriptor ∧ HasDescriptor base descriptor :=
  hasName_iff.trans (named.exists_descriptor_iff baseDotless dotless.own)

private theorem HasName.hasSuperclassName_iff_of_dotless
    (named : HasName base name)
    (baseDotless : base.Dotless) (childDotless : child.Dotless) :
    HasSuperclassName child name ↔ child.IsSubclass base :=
  hasSuperclassName_iff.trans
    (named.exists_descriptor_iff baseDotless childDotless.superclass)

/-! ### Entries of a table -/

variable {markers : List String} {table : ClassTable}
  {definitions : List Definition}

/-- The entry of a table that the name of a definition leads to. -/
def HasEntry (table : ClassTable) (definition : Definition)
    (position : Fin table.size) : Prop :=
  ∃ name, HasName definition name ∧ table.find? name = some position

theorem hasEntry_iff {position : Fin table.size} :
    HasEntry table definition position ↔
      HasName definition (table.get position).name := by
  constructor
  · intro ⟨name, named, found⟩
    rw [(table.find?_eq_some_iff name position).mp found]
    exact named
  · intro named
    exact ⟨_, named, (table.find?_eq_some_iff _ position).mpr rfl⟩

private theorem HasEntry.unique {left right : Fin table.size}
    (first : HasEntry table definition left)
    (second : HasEntry table definition right) : left = right :=
  table.eq_of_name_eq
    ((hasEntry_iff.mp first).unique (hasEntry_iff.mp second))

theorem StandsAt.hasEntry {position : Fin table.size}
    (stands : StandsAt markers definitions table position definition) :
    HasEntry table definition position :=
  hasEntry_iff.mpr stands.summarizes.name

private theorem Represents.exists_hasEntry
    (represents : Represents markers table definitions)
    (member : definition ∈ definitions) :
    ∃ position, HasEntry table definition position := by
  obtain ⟨summary, summarizes⟩ := represents.readable definition member
  obtain ⟨kept, isKept, keptNamed⟩ := exists_kept member summarizes.name
  obtain ⟨position, stands⟩ := represents.exists_position isKept
  refine ⟨position, hasEntry_iff.mpr ?_⟩
  rw [stands.summarizes.name.unique keptNamed]
  exact summarizes.name

/-- How a table links some definitions.  Each of them has an entry, and each
entry holds one of them.  Two have the same entry exactly if they have the same
descriptor.  The superclass of a class is found at the entry of a definition
exactly if the class is a subclass of it, and so it is found exactly if the
class is a subclass of one of them. -/
structure LinksByDescriptor (markers : List String) (table : ClassTable)
    (definitions : List Definition) : Prop where
  entry : ∀ definition ∈ definitions, ∃ position,
    HasEntry table definition position
  occupied : ∀ position, ∃ definition,
    StandsAt markers definitions table position definition
  shared_iff : ∀ left ∈ definitions, ∀ right ∈ definitions,
    (∃ position, HasEntry table left position ∧
        HasEntry table right position) ↔
      ∃ descriptor, HasDescriptor left descriptor ∧
        HasDescriptor right descriptor
  parent?_iff : ∀ position child,
    StandsAt markers definitions table position child →
      ∀ base ∈ definitions, ∀ parent, HasEntry table base parent →
        (table.parent? position = some parent ↔ child.IsSubclass base)
  exists_parent?_iff : ∀ position child,
    StandsAt markers definitions table position child →
      ((∃ parent, table.parent? position = some parent) ↔
        ∃ base ∈ definitions, child.IsSubclass base)

theorem StandsAt.parent?_iff {position parent : Fin table.size}
    (stands : StandsAt markers definitions table position child)
    (entry : HasEntry table base parent) (baseDotless : base.Dotless)
    (childDotless : child.Dotless) :
    table.parent? position = some parent ↔ child.IsSubclass base := by
  rw [ClassTable.parent?_eq_some_iff, ClassTable.IsParent,
    ← (hasEntry_iff.mp entry).hasSuperclassName_iff_of_dotless baseDotless
      childDotless, HasSuperclassName, stands.summarizes.superclassName,
    Except.ok.injEq]

private theorem Represents.linksByDescriptor
    (represents : Represents markers table definitions)
    (dotless : ∀ definition ∈ definitions, definition.Dotless) :
    LinksByDescriptor markers table definitions := by
  constructor
  case entry => exact fun _ member => represents.exists_hasEntry member
  case occupied => exact represents.exists_definition
  case shared_iff =>
    intro left leftMember right rightMember
    obtain ⟨position, entry⟩ := represents.exists_hasEntry rightMember
    rw [← (hasEntry_iff.mp entry).hasName_iff_of_dotless
      (dotless right rightMember) (dotless left leftMember), ← hasEntry_iff]
    constructor
    · intro ⟨other, leftEntry, rightEntry⟩
      exact rightEntry.unique entry ▸ leftEntry
    · intro leftEntry
      exact ⟨position, leftEntry, entry⟩
  case parent?_iff =>
    intro position child stands base member parent entry
    exact stands.parent?_iff entry (dotless base member)
      (dotless child stands.kept.mem)
  case exists_parent?_iff =>
    intro position child stands
    have childDotless := dotless child stands.kept.mem
    constructor
    · intro ⟨parent, found⟩
      obtain ⟨base, above⟩ := represents.exists_definition parent
      have member := above.kept.mem
      exact ⟨base, member, (stands.parent?_iff above.hasEntry
        (dotless base member) childDotless).mp found⟩
    · intro ⟨base, member, subclass⟩
      obtain ⟨parent, entry⟩ := represents.exists_hasEntry member
      exact ⟨parent, (stands.parent?_iff entry (dotless base member)
        childDotless).mpr subclass⟩

/-- Dotted names link classes as their descriptors do.  What has a dotted name
is `L`, a path and `;`, and the name of a path without dots leads back to it.
If no descriptor has a dot, the table of a survey links definitions by their
descriptors at every point of the scan, and the links are those by which a
JUnit3 scan that admits a class finds further ones. -/
theorem dotted_names_link_as_descriptors :
    (∀ descriptor, (∃ name, Descriptor.className descriptor = .ok name) ↔
      ∃ path, descriptor = "L" ++ path ++ ";") ∧
    (∀ path,
      Descriptor.className ("L" ++ path ++ ";") =
        .ok (path.map Descriptor.dotted) ∧
      ('.' ∉ path.toList →
        (path.map Descriptor.dotted).map Descriptor.slashed = path)) ∧
    (∀ left right name, Descriptor.className left = .ok name →
      Descriptor.className right = .ok name → '.' ∉ left.toList →
      '.' ∉ right.toList → left = right) ∧
    (∀ markers segments seen rest survey,
      classDefinitions segments = seen ++ rest →
      (∀ definition ∈ seen, definition.Dotless) →
      Survey.empty.extend markers seen = (survey, none) →
        Survey.ofSegments markers segments = survey.extend markers rest ∧
        LinksByDescriptor markers survey.table seen) ∧
    ∀ (scan : Scan) (child base : Definition) descriptor tests,
      HasDescriptor base descriptor →
        ((scan.admitClass descriptor tests).examine child =
            .ok ((scan.admitClass descriptor tests).pass child) ↔
          scan.examine child = .ok (scan.pass child) ∧
            ¬ child.IsSubclass base) := by
  refine ⟨Descriptor.exists_className_iff, ?_, ?_, ?_, ?_⟩
  · intro path
    exact ⟨(Descriptor.className_eq_ok_iff_of_path _ _).mpr ⟨path, rfl, rfl⟩,
      Descriptor.map_slashed_map_dotted⟩
  · exact fun _ _ _ => Descriptor.className_injective
  · intro markers segments seen rest survey split dotless reached
    constructor
    · rw [← Survey.extend_append seen rest _ _ reached, ← split]
      rfl
    · exact (Survey.represents_of_extend reached).linksByDescriptor dotless
  · intro scan child base descriptor tests described
    exact examine_eq_pass_of_admitClass_iff scan described tests

/-! ### An empty path and one with a semicolon -/

/-- The descriptors `La/B;;` and `L;`. -/
def twoDescriptors : Bytes :=
  #[6, 0x4c, 0x61, 0x2f, 0x42, 0x3b, 0x3b, 0, 2, 0x4c, 0x3b, 0]

def twoTypes (strings : Array UInt32) (classDefs : Array ClassDef) : Segment :=
  { threeTypes classDefs with
    strings := strings
    types := #[0, 1]
    data := twoDescriptors }

def leafPart : IndexedSegment :=
  (twoTypes #[0, 8] #[bareClass 0 1]).indexed

/-- The strings stand in the other order than in `leafPart`. -/
def rootPart : IndexedSegment :=
  (twoTypes #[8, 0] #[bareClass 0 noIndex, bareClass 1 0]).indexed

def leafClass : Definition :=
  { segmentNumber := 1, segment := leafPart, classDef := bareClass 0 1 }

def rootClass : Definition :=
  { segmentNumber := 2, segment := rootPart, classDef := bareClass 0 noIndex }

def leafAgain : Definition :=
  { segmentNumber := 2, segment := rootPart, classDef := bareClass 1 0 }

private theorem leafPart_typeDescriptor :
    leafPart.typeDescriptor 0 = .ok "La/B;;" ∧
    leafPart.typeDescriptor 1 = .ok "L;" :=
  ⟨typeDescriptor_of_plain rfl rfl rfl (by decide) (by decide),
    typeDescriptor_of_plain rfl rfl rfl (by decide) (by decide)⟩

theorem rootPart_typeDescriptor :
    rootPart.typeDescriptor 0 = .ok "L;" ∧
    rootPart.typeDescriptor 1 = .ok "La/B;;" :=
  ⟨typeDescriptor_of_plain rfl rfl rfl (by decide) (by decide),
    typeDescriptor_of_plain rfl rfl rfl (by decide) (by decide)⟩

theorem leafClass_described :
    HasDescriptor leafClass "La/B;;" ∧ HasSuperclass leafClass "L;" :=
  ⟨leafPart_typeDescriptor.1,
    bind_eq_ok_iff.mpr ⟨_, leafPart_typeDescriptor.2, rfl⟩⟩

theorem leafAgain_described :
    HasDescriptor leafAgain "La/B;;" ∧ HasSuperclass leafAgain "L;" :=
  ⟨rootPart_typeDescriptor.2,
    bind_eq_ok_iff.mpr ⟨_, rootPart_typeDescriptor.1, rfl⟩⟩

theorem rootClass_described :
    HasDescriptor rootClass "L;" ∧
      ∀ descriptor, ¬ HasSuperclass rootClass descriptor := by
  refine ⟨rootPart_typeDescriptor.1, ?_⟩
  intro descriptor known
  cases known

private theorem leafThenRoot_dotless :
    ∀ definition ∈ [leafClass, rootClass, leafAgain], definition.Dotless := by
  have leaf {definition : Definition}
      (described : HasDescriptor definition "La/B;;" ∧
        HasSuperclass definition "L;") : definition.Dotless := by
    constructor
    case own =>
      intro descriptor own
      rw [own.unique described.1]
      decide
    case superclass =>
      intro descriptor known
      rw [known.unique described.2]
      decide
  have root : rootClass.Dotless := by
    constructor
    case own =>
      intro descriptor own
      rw [own.unique rootClass_described.1]
      decide
    case superclass =>
      intro descriptor known
      exact (rootClass_described.2 descriptor known).elim
  rw [List.forall_mem_cons, List.forall_mem_cons, List.forall_mem_singleton]
  exact ⟨leaf leafClass_described, root, leaf leafAgain_described⟩

private theorem leafThenRoot_surveyed : ∃ survey,
    Survey.empty.extend [] [leafClass, rootClass, leafAgain] =
      (survey, none) := by
  have leaf {definition : Definition}
      (described : HasDescriptor definition "La/B;;" ∧
        HasSuperclass definition "L;")
      (noDirectory : definition.classDef.annotationsOffset = 0) :
      ∃ summary, Summarizes [] definition summary :=
    ⟨_, summarizes_of_no_directory
      (hasName_iff.mpr ⟨_, described.1, rfl⟩)
      (hasSuperclassName_iff.mpr ⟨_, described.2, rfl⟩) noDirectory⟩
  obtain ⟨first, firstFound⟩ := leaf leafClass_described rfl
  obtain ⟨third, thirdFound⟩ := leaf leafAgain_described rfl
  have second : Summarizes [] rootClass _ := summarizes_of_no_directory
    (hasName_iff.mpr ⟨_, rootClass_described.1, rfl⟩) rfl rfl
  obtain ⟨survey, reached, _⟩ := Survey.extend_holdsLatest
    (.cons firstFound (.cons second (.cons thirdFound .nil))) _ _
    holdsLatest_empty
  exact ⟨survey, reached⟩

/-- Both definitions of `a.B;` lead to one entry, whose superclass is found at
that of the class with the empty name, and a JUnit3 scan that admits the latter
does not pass over the former. -/
theorem leafThenRoot_linked :
    ("a/B;".map Descriptor.dotted).map Descriptor.slashed = "a/B;" ∧
    (∀ descriptor, Descriptor.className descriptor = .ok "a.B;" →
      '.' ∉ descriptor.toList → descriptor = "La/B;;") ∧
    ∃ survey leaf root,
      Survey.ofSegments [] [leafPart, rootPart] = (survey, none) ∧
      HasEntry survey.table leafClass leaf ∧
      HasEntry survey.table leafAgain leaf ∧
      HasEntry survey.table rootClass root ∧
      leaf ≠ root ∧
      survey.table.parent? leaf = some root ∧
      survey.table.parent? root = none ∧
      ∀ scan : Scan, (scan.admitClass "L;" []).examine leafClass ≠
        .ok ((scan.admitClass "L;" []).pass leafClass) := by
  obtain ⟨_, recovers, injective, tables, scans⟩ :=
    dotted_names_link_as_descriptors
  obtain ⟨survey, reached⟩ := leafThenRoot_surveyed
  obtain ⟨ended, links⟩ := tables [] [leafPart, rootPart]
    [leafClass, rootClass, leafAgain] [] survey rfl leafThenRoot_dotless reached
  obtain ⟨leaf, first, again⟩ :=
    (links.shared_iff leafClass (by simp) leafAgain (by simp)).mpr
      ⟨_, leafClass_described.1, leafAgain_described.1⟩
  obtain ⟨root, rootEntry⟩ := links.entry rootClass (by simp)
  have leafUp : leafClass.IsSubclass rootClass :=
    ⟨_, leafClass_described.2, rootClass_described.1⟩
  have againUp : leafAgain.IsSubclass rootClass :=
    ⟨_, leafAgain_described.2, rootClass_described.1⟩
  -- The descriptors differ, so no entry is shared with the root.
  have apart {position : Fin survey.table.size} {definition : Definition}
      (member : definition ∈ [leafClass, rootClass, leafAgain])
      (described : HasDescriptor definition "La/B;;")
      (entry : HasEntry survey.table definition position) :
      ¬ HasEntry survey.table rootClass position := by
    intro rootHere
    obtain ⟨descriptor, own, rootOwn⟩ :=
      (links.shared_iff definition member rootClass (by simp)).mp
        ⟨position, entry, rootHere⟩
    exact absurd ((own.unique described).symm.trans
      (rootOwn.unique rootClass_described.1)) (by decide)
  have notRoot := apart (by simp) leafClass_described.1 first
  have up : survey.table.parent? leaf = some root := by
    obtain ⟨child, stands⟩ := links.occupied leaf
    refine (links.parent?_iff leaf child stands rootClass (by simp) root
      rootEntry).mpr ?_
    rcases List.mem_cons.mp stands.kept.mem with rfl | member
    · exact leafUp
    rcases List.mem_cons.mp member with rfl | member
    · exact (notRoot stands.hasEntry).elim
    · rw [List.mem_singleton.mp member]
      exact againUp
  have top : survey.table.parent? root = none := by
    obtain ⟨child, stands⟩ := links.occupied root
    rw [Option.eq_none_iff_forall_ne_some]
    intro parent found
    obtain ⟨base, _, descriptor, known, _⟩ :=
      (links.exists_parent?_iff root child stands).mp ⟨parent, found⟩
    rcases List.mem_cons.mp stands.kept.mem with rfl | member
    · exact apart (by simp) leafClass_described.1 stands.hasEntry rootEntry
    rcases List.mem_cons.mp member with rfl | member
    · exact rootClass_described.2 descriptor known
    · rw [List.mem_singleton.mp member] at stands
      exact apart (by simp) leafAgain_described.1 stands.hasEntry rootEntry
  refine ⟨(recovers "a/B;").2 (by decide), ?_, survey, leaf, root, ended, first,
    again, rootEntry, ?_, up, top, ?_⟩
  · intro descriptor formed noDot
    exact injective descriptor "La/B;;" "a.B;" formed rfl noDot (by decide)
  · rintro rfl
    exact notRoot rootEntry
  · intro scan passed
    exact ((scans scan leafClass rootClass "L;" [] rootClass_described.1).mp
      passed).2 leafUp

end JUnit4
end DexCensus
