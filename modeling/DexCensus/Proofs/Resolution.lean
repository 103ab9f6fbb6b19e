/-
What it takes to resolve a value, and what is resolved.

A value can be resolved exactly if no reference anywhere in it is bad.  That a
later element has the same name makes no difference: all are resolved.  The
resolved value has the shape of the value.  Only the elements of annotations
are arranged anew, in ascending order of their names, where of elements with
the same name the last one stays.
-/

import DexCensus.Dex.Resolution
import DexCensus.Proofs.Computation
import DexCensus.Proofs.Descriptor
import DexCensus.Proofs.NamedValues

namespace DexCensus
namespace Dex

def EncodedValue.subvalues : EncodedValue → List EncodedValue
  | .array values => values
  | .nested _ elements => elements.map Prod.snd
  | _ => []

private theorem EncodedValue.sizeOf_lt_of_mem_subvalues
    {tree child : EncodedValue}
    (member : child ∈ tree.subvalues) : sizeOf child < sizeOf tree := by
  cases tree with
  | array values =>
      have below : sizeOf child < sizeOf values :=
        List.sizeOf_lt_of_mem member
      simp only [array.sizeOf_spec]
      omega
  | nested type elements =>
      obtain ⟨element, listed, rfl⟩ := List.mem_map.mp member
      have below := List.sizeOf_lt_of_mem listed
      rw [Prod.mk.sizeOf_spec] at below
      simp only [nested.sizeOf_spec]
      omega
  | _ => cases member

/-- Induction where a value comes after the values in it. -/
theorem EncodedValue.subvalues_induction {motive : EncodedValue → Prop}
    (step : ∀ tree, (∀ child ∈ tree.subvalues, motive child) → motive tree)
    (tree : EncodedValue) : motive tree := by
  have below := (measure fun value : EncodedValue => sizeOf value).wf
  induction tree using below.induction with
  | _ tree ih =>
      apply step tree
      intro child member
      exact ih child (sizeOf_lt_of_mem_subvalues member)

inductive Occurs (node : EncodedValue) : EncodedValue → Prop
  | here : Occurs node node
  | inside {tree child : EncodedValue} :
      child ∈ tree.subvalues → Occurs node child → Occurs node tree

private theorem occurs_iff (node tree : EncodedValue) :
    Occurs node tree ↔
      node = tree ∨ ∃ child ∈ tree.subvalues, Occurs node child := by
  constructor
  · intro occurs
    cases occurs with
    | here => exact Or.inl rfl
    | inside member inChild => exact Or.inr ⟨_, member, inChild⟩
  · rintro (same | ⟨child, member, inChild⟩)
    · rw [same]
      exact .here
    · exact .inside member inChild

private theorem forall₂_congr_of_mem {α β : Type} {related other : α → β → Prop}
    {values : List α} {results : List β}
    (same : ∀ value ∈ values, ∀ result,
      related value result ↔ other value result) :
    List.Forall₂ related values results ↔
      List.Forall₂ other values results := by
  induction values generalizing results with
  | nil => rw [List.forall₂_nil_left_iff, List.forall₂_nil_left_iff]
  | cons value rest ih =>
      obtain ⟨sameFirst, sameRest⟩ := List.forall_mem_cons.mp same
      simp only [List.forall₂_cons_left_iff, sameFirst, ih sameRest]

namespace Segment

/-! ### References -/

/-- A string index that is out of range, or whose string data cannot be
read. -/
inductive BadString (segment : Segment) (index : UInt32) : Prop
  | outOfRange : segment.strings.size ≤ index.toNat → BadString segment index
  | bytes {offset : UInt32} {fault : Fault} :
      segment.strings[index.toNat]? = some offset →
      stringBytes.valueAt segment.data offset.toNat = .error fault →
        BadString segment index
  | text {offset : UInt32} {bytes : List UInt8} {fault : Utf8.Fault} :
      segment.strings[index.toNat]? = some offset →
      stringBytes.valueAt segment.data offset.toNat = .ok bytes →
      StringData.decode bytes = .error fault → BadString segment index

/-- An index into a table that is out of range, or whose row names a string
that is bad. -/
inductive BadRow {α : Type} (segment : Segment) (table : Array α)
    (name : α → UInt32) (index : UInt32) : Prop
  | outOfRange :
      table.size ≤ index.toNat → BadRow segment table name index
  | string {row : α} :
      table[index.toNat]? = some row → segment.BadString (name row) →
        BadRow segment table name index

def BadType (segment : Segment) (index : UInt32) : Prop :=
  segment.BadRow segment.types id index

def BadField (segment : Segment) (index : UInt32) : Prop :=
  segment.BadRow segment.fields Field.name index

/-- A value that refers itself to something that cannot be resolved; what
stands in the value does not count. -/
inductive BadReference (segment : Segment) : EncodedValue → Prop
  | string {index : UInt32} :
      segment.BadString index → BadReference segment (.string index)
  | type {index : UInt32} :
      segment.BadType index → BadReference segment (.type index)
  | enum {index : UInt32} :
      segment.BadField index → BadReference segment (.enum index)
  | nestedType {type : UInt32} {elements : List Element} :
      segment.BadType type → BadReference segment (.nested type elements)
  | notClass {type : UInt32} {elements : List Element} {descriptor : String} :
      segment.typeDescriptor type = .ok descriptor →
      (∀ path, ¬ Descriptor.HasPath descriptor path) →
        BadReference segment (.nested type elements)
  | elementName {type : UInt32} {elements : List Element}
      {element : Element} :
      element ∈ elements → segment.BadString element.1 →
        BadReference segment (.nested type elements)

theorem entry_fails_iff {α : Type} (pool : Pool) (table : Array α)
    (index : UInt32) :
    (∃ fault, entry pool table index = .error fault) ↔
      table.size ≤ index.toNat := by
  rw [← Array.getElem?_eq_none_iff, entry]
  cases table[index.toNat]? with
  | none => simp
  | some found => simp

theorem entry_eq_ok_iff {α : Type} (pool : Pool) (table : Array α)
    (index : UInt32) (found : α) :
    entry pool table index = .ok found ↔ table[index.toNat]? = some found := by
  rw [entry]
  cases table[index.toNat]? with
  | none => simp
  | some other => simp

theorem string_fails_iff (segment : Segment) (index : UInt32) :
    (∃ fault, segment.string index = .error fault) ↔
      segment.BadString index := by
  unfold string
  rw [bind_fails_iff, entry_fails_iff]
  simp only [bind_fails_iff, entry_eq_ok_iff]
  constructor
  · rintro (outside | ⟨offset, listed, ⟨fault, failed⟩ |
      ⟨bytes, read, fault, failed⟩⟩)
    · exact .outOfRange outside
    · exact .bytes listed failed
    · cases decoded : StringData.decode bytes with
      | ok text =>
          rw [decoded] at failed
          cases failed
      | error cause => exact .text listed read decoded
  · rintro (outside | ⟨listed, failed⟩ | ⟨listed, read, failed⟩)
    · exact Or.inl outside
    · exact Or.inr ⟨_, listed, Or.inl ⟨_, failed⟩⟩
    · refine Or.inr ⟨_, listed, Or.inr ⟨_, read, ?_⟩⟩
      rw [failed]
      exact ⟨_, rfl⟩

theorem row_fails_iff {α : Type} (segment : Segment) (pool : Pool)
    (table : Array α) (name : α → UInt32) (index : UInt32) :
    (∃ fault, (entry pool table index >>= fun row =>
      segment.string (name row)) = .error fault) ↔
      segment.BadRow table name index := by
  rw [bind_fails_iff, entry_fails_iff]
  simp only [entry_eq_ok_iff, string_fails_iff]
  constructor
  · rintro (outside | ⟨row, listed, bad⟩)
    · exact .outOfRange outside
    · exact .string listed bad
  · rintro (outside | ⟨listed, bad⟩)
    · exact Or.inl outside
    · exact Or.inr ⟨_, listed, bad⟩

theorem typeDescriptor_fails_iff (segment : Segment) (index : UInt32) :
    (∃ fault, segment.typeDescriptor index = .error fault) ↔
      segment.BadType index :=
  segment.row_fails_iff .types segment.types id index

private theorem fieldName_fails_iff (segment : Segment) (index : UInt32) :
    (∃ fault, segment.fieldName index = .error fault) ↔
      segment.BadField index :=
  segment.row_fails_iff .fields segment.fields Field.name index

theorem className_eq_ok_iff (segment : Segment) (type : UInt32)
    (name : String) :
    segment.className type = .ok name ↔
      ∃ descriptor path, segment.typeDescriptor type = .ok descriptor ∧
        Descriptor.HasPath descriptor path ∧
        name = String.ofList (path.map Descriptor.dotted) := by
  unfold className
  simp only [bind_eq_ok_iff, Descriptor.className_eq_ok_iff, exists_and_left]

private theorem className_fails_iff (segment : Segment) (type : UInt32) :
    (∃ fault, segment.className type = .error fault) ↔
      segment.BadType type ∨
        ∃ descriptor, segment.typeDescriptor type = .ok descriptor ∧
          ∀ path, ¬ Descriptor.HasPath descriptor path := by
  have notClass (descriptor : String) :
      (∃ fault, Descriptor.className descriptor = .error fault) ↔
        ∀ path, ¬ Descriptor.HasPath descriptor path := by
    cases found : Descriptor.className descriptor with
    | error fault =>
        refine iff_of_true ⟨fault, rfl⟩ ?_
        intro path whole
        have named := (Descriptor.className_eq_ok_iff descriptor _).mpr
          ⟨path, whole, rfl⟩
        rw [found] at named
        cases named
    | ok name =>
        obtain ⟨path, whole, _⟩ :=
          (Descriptor.className_eq_ok_iff descriptor name).mp found
        refine iff_of_false ?_ (fun others => others path whole)
        rintro ⟨fault, impossible⟩
        cases impossible
  unfold className
  rw [bind_fails_iff, typeDescriptor_fails_iff]
  simp only [notClass]

theorem resolveList_eq_mapM (segment : Segment) (values : List EncodedValue) :
    segment.resolveList values = values.mapM segment.resolve := by
  induction values with
  | nil => rfl
  | cons value rest ih => rw [resolveList, ih, List.mapM_cons]

private theorem resolveElements_fails_iff (segment : Segment)
    (elements : List Element) :
    (∃ fault, segment.resolveElements elements = .error fault) ↔
      ∃ element ∈ elements, segment.BadString element.1 ∨
        ∃ fault, segment.resolve element.2 = .error fault := by
  induction elements with
  | nil => simp [resolveElements]
  | cons element rest ih =>
      rw [resolveElements, List.exists_mem_cons_iff, ← ih, or_assoc,
        ← string_fails_iff]
      apply bind_fails_iff_of_forall
      intro name
      apply bind_fails_iff_of_forall
      intro value
      exact map_fails_iff

theorem resolveElements_eq_ok_iff (segment : Segment)
    (elements : List Element) (pairs : List (String × Value)) :
    segment.resolveElements elements = .ok pairs ↔
      List.Forall₂ (fun element pair =>
        segment.string element.1 = .ok pair.1) elements pairs ∧
      List.Forall₂ (fun value resolved =>
        segment.resolve value = .ok resolved)
        (elements.map Prod.snd) (pairs.map Prod.snd) := by
  induction elements generalizing pairs with
  | nil =>
      rw [List.forall₂_nil_left_iff]
      constructor
      · intro found
        cases found
        exact ⟨rfl, .nil⟩
      · rintro ⟨nothing, _⟩
        rw [nothing]
        rfl
  | cons element rest ih =>
      rw [resolveElements, bind_eq_ok_iff]
      constructor
      · rintro ⟨name, named, found⟩
        obtain ⟨value, resolved, found⟩ := bind_eq_ok_iff.mp found
        obtain ⟨others, othersResolved, whole⟩ := bind_eq_ok_iff.mp found
        obtain ⟨names, values⟩ := (ih others).mp othersResolved
        cases whole
        exact ⟨.cons named names, .cons resolved values⟩
      · rintro ⟨names, values⟩
        cases names with
        | cons named names =>
            obtain ⟨resolved, values⟩ := List.forall₂_cons.mp values
            refine ⟨_, named, bind_eq_ok_iff.mpr ⟨_, resolved, ?_⟩⟩
            exact bind_eq_ok_iff.mpr ⟨_, (ih _).mpr ⟨names, values⟩, rfl⟩

/-! ### Resolved values -/

/-- What a value is resolved to.  Constants stay as they are, references become
text or null, the values of an array stay in their places, and an annotation
has the dotted name of its type and collects the names and values of its
elements. -/
inductive Resolves (segment : Segment) : EncodedValue → Value → Prop
  | byte {value : Int8} : Resolves segment (.byte value) (.byte value)
  | short {value : Int16} : Resolves segment (.short value) (.short value)
  | char {value : UInt16} : Resolves segment (.char value) (.char value)
  | int {value : Int32} : Resolves segment (.int value) (.int value)
  | long {value : Int64} : Resolves segment (.long value) (.long value)
  | float {bits : UInt32} : Resolves segment (.float bits) (.float bits)
  | double {bits : UInt64} : Resolves segment (.double bits) (.double bits)
  | bool {value : Bool} : Resolves segment (.bool value) (.bool value)
  | null : Resolves segment .null .null
  | methodType {index : UInt32} : Resolves segment (.methodType index) .null
  | methodHandle {index : UInt32} :
      Resolves segment (.methodHandle index) .null
  | field {index : UInt32} : Resolves segment (.field index) .null
  | method {index : UInt32} : Resolves segment (.method index) .null
  | string {index : UInt32} {text : String} :
      segment.string index = .ok text →
        Resolves segment (.string index) (.string text)
  | type {index : UInt32} {descriptor : String} :
      segment.typeDescriptor index = .ok descriptor →
        Resolves segment (.type index) (.type descriptor)
  | enum {index : UInt32} {name : String} :
      segment.fieldName index = .ok name →
        Resolves segment (.enum index) (.enum name)
  | array {values : List EncodedValue} {resolved : List Value} :
      List.Forall₂ (Resolves segment) values resolved →
        Resolves segment (.array values) (.array resolved)
  | nested {type : UInt32} {elements : List Element} {descriptor : String}
      {path : List Char} {pairs : List (String × Value)}
      {values : NamedValues} :
      segment.typeDescriptor type = .ok descriptor →
      Descriptor.HasPath descriptor path →
      List.Forall₂ (fun element pair =>
        segment.string element.1 = .ok pair.1) elements pairs →
      List.Forall₂ (Resolves segment)
        (elements.map Prod.snd) (pairs.map Prod.snd) →
      NamedValues.Collects values pairs →
        Resolves segment (.nested type elements)
          (.nested (String.ofList (path.map Descriptor.dotted)) values)

theorem resolve_eq_ok_iff (segment : Segment) (tree : EncodedValue)
    (value : Value) :
    segment.resolve tree = .ok value ↔ segment.Resolves tree value := by
  induction tree using EncodedValue.subvalues_induction generalizing value with
  | step tree ih =>
      cases tree with
      | string index =>
          rw [resolve, bind_eq_ok_iff]
          constructor
          · rintro ⟨text, read, whole⟩
            cases whole
            exact .string read
          · intro resolves
            cases resolves with
            | string read => exact ⟨_, read, rfl⟩
      | type index =>
          rw [resolve, bind_eq_ok_iff]
          constructor
          · rintro ⟨descriptor, read, whole⟩
            cases whole
            exact .type read
          · intro resolves
            cases resolves with
            | type read => exact ⟨_, read, rfl⟩
      | enum index =>
          rw [resolve, bind_eq_ok_iff]
          constructor
          · rintro ⟨name, read, whole⟩
            cases whole
            exact .enum read
          · intro resolves
            cases resolves with
            | enum read => exact ⟨_, read, rfl⟩
      | array values =>
          have each (resolved : List Value) :
              segment.resolveList values = .ok resolved ↔
                List.Forall₂ segment.Resolves values resolved := by
            rw [resolveList_eq_mapM, mapM_eq_ok_iff]
            exact forall₂_congr_of_mem ih
          rw [resolve, bind_eq_ok_iff]
          constructor
          · rintro ⟨resolved, all, whole⟩
            cases whole
            exact .array ((each resolved).mp all)
          · intro resolves
            cases resolves with
            | array all => exact ⟨_, (each _).mpr all, rfl⟩
      | nested type elements =>
          have each (pairs : List (String × Value)) :
              segment.resolveElements elements = .ok pairs ↔
                List.Forall₂ (fun element pair =>
                  segment.string element.1 = .ok pair.1) elements pairs ∧
                List.Forall₂ segment.Resolves
                  (elements.map Prod.snd) (pairs.map Prod.snd) := by
            rw [resolveElements_eq_ok_iff]
            exact and_congr_right' (forall₂_congr_of_mem ih)
          rw [resolve, bind_eq_ok_iff]
          constructor
          · rintro ⟨name, named, found⟩
            obtain ⟨pairs, read, whole⟩ := bind_eq_ok_iff.mp found
            obtain ⟨names, values⟩ := (each pairs).mp read
            obtain ⟨descriptor, path, described, hasPath, rfl⟩ :=
              (className_eq_ok_iff segment type name).mp named
            cases whole
            exact .nested described hasPath names values
              (NamedValues.collects_ofPairs pairs)
          · intro resolves
            cases resolves with
            | nested described hasPath names values collects =>
                have named := (className_eq_ok_iff segment type _).mpr
                  ⟨_, _, described, hasPath, rfl⟩
                have read := (each _).mpr ⟨names, values⟩
                rw [(NamedValues.collects_iff _ _).mp collects]
                exact ⟨_, named, bind_eq_ok_iff.mpr ⟨_, read, rfl⟩⟩
      | _ =>
          rw [resolve]
          constructor
          · intro found
            cases found
            constructor
          · intro resolves
            cases resolves
            rfl

private theorem badReference_nested_iff (segment : Segment) (type : UInt32)
    (elements : List Element) :
    segment.BadReference (.nested type elements) ↔
      (∃ fault, segment.className type = .error fault) ∨
        ∃ element ∈ elements, segment.BadString element.1 := by
  rw [className_fails_iff]
  constructor
  · intro bad
    cases bad with
    | nestedType bad => exact Or.inl (Or.inl bad)
    | notClass described others => exact Or.inl (Or.inr ⟨_, described, others⟩)
    | elementName member bad => exact Or.inr ⟨_, member, bad⟩
  · rintro ((bad | ⟨descriptor, described, others⟩) | ⟨element, member, bad⟩)
    · exact .nestedType bad
    · exact .notClass described others
    · exact .elementName member bad

private theorem resolve_fails_step (segment : Segment) (tree : EncodedValue) :
    (∃ fault, segment.resolve tree = .error fault) ↔
      segment.BadReference tree ∨ ∃ child ∈ tree.subvalues,
        ∃ fault, segment.resolve child = .error fault := by
  cases tree with
  | string index =>
      rw [resolve, map_fails_iff, string_fails_iff]
      constructor
      · intro bad
        exact Or.inl (.string bad)
      · rintro (bad | ⟨_, impossible, _⟩)
        · cases bad with
          | string bad => exact bad
        · cases impossible
  | type index =>
      rw [resolve, map_fails_iff, typeDescriptor_fails_iff]
      constructor
      · intro bad
        exact Or.inl (.type bad)
      · rintro (bad | ⟨_, impossible, _⟩)
        · cases bad with
          | type bad => exact bad
        · cases impossible
  | enum index =>
      rw [resolve, map_fails_iff, fieldName_fails_iff]
      constructor
      · intro bad
        exact Or.inl (.enum bad)
      · rintro (bad | ⟨_, impossible, _⟩)
        · cases bad with
          | enum bad => exact bad
        · cases impossible
  | array values =>
      rw [resolve, map_fails_iff, resolveList_eq_mapM, mapM_fails_iff]
      constructor
      · intro failed
        exact Or.inr failed
      · rintro (impossible | failed)
        · cases impossible
        · exact failed
  | nested type elements =>
      have values : (∃ child ∈ elements.map Prod.snd,
          ∃ fault, segment.resolve child = .error fault) ↔
          ∃ element ∈ elements,
            ∃ fault, segment.resolve element.2 = .error fault := by
        simp only [List.mem_map, exists_exists_and_eq_and]
      rw [resolve, EncodedValue.subvalues, values, badReference_nested_iff,
        or_assoc]
      apply bind_fails_iff_of_forall
      intro name
      rw [map_fails_iff, resolveElements_fails_iff]
      simp only [and_or_left, exists_or]
  | _ =>
      rw [resolve]
      constructor
      · rintro ⟨fault, impossible⟩
        cases impossible
      · rintro (impossible | ⟨_, impossible, _⟩) <;> cases impossible

private theorem resolve_fails_iff (segment : Segment) (tree : EncodedValue) :
    (∃ fault, segment.resolve tree = .error fault) ↔
      ∃ node, Occurs node tree ∧ segment.BadReference node := by
  induction tree using EncodedValue.subvalues_induction with
  | step tree ih =>
      rw [resolve_fails_step]
      simp only [occurs_iff _ tree]
      constructor
      · rintro (bad | ⟨child, member, fails⟩)
        · exact ⟨tree, Or.inl rfl, bad⟩
        · obtain ⟨node, occurs, bad⟩ := (ih child member).mp fails
          exact ⟨node, Or.inr ⟨child, member, occurs⟩, bad⟩
      · rintro ⟨node, same | ⟨child, member, occurs⟩, bad⟩
        · exact Or.inl (same ▸ bad)
        · exact Or.inr ⟨child, member,
            (ih child member).mpr ⟨node, occurs, bad⟩⟩

/-- Resolving fails exactly if some value in the tree, however deep and whether
or not it is kept, has a reference of its own that is bad; otherwise it gives
what the tree is resolved to, and nothing else. -/
theorem resolve_exact (segment : Segment) (tree : EncodedValue) :
    ((∃ fault, segment.resolve tree = .error fault) ↔
      ∃ node, Occurs node tree ∧ segment.BadReference node) ∧
    ∀ value, segment.resolve tree = .ok value ↔ segment.Resolves tree value :=
  ⟨segment.resolve_fails_iff tree, segment.resolve_eq_ok_iff tree⟩

end Segment
end Dex
end DexCensus
