/-
Values of annotation elements, with all references resolved to text.

Two values are the same if they are of the same kind and have the same
content; floating-point numbers are bit patterns, so a NaN is the same as
itself and the two zeros differ.  The check is a recursion over both trees,
and the theorems of this file say that it decides equality.

The values of an annotation are kept as a list in ascending order of their
names, each name once, so that equal collections are equal lists.
-/

namespace DexCensus

inductive HashInput where
  /-- The number of an alternative among the alternatives of its type. -/
  | kind (number : Nat)
  | int8 (value : Int8)
  | int16 (value : Int16)
  | int32 (value : Int32)
  | int64 (value : Int64)
  | uint16 (value : UInt16)
  | uint32 (value : UInt32)
  | uint64 (value : UInt64)
  | bool (value : Bool)
  | text (content : String)
  | length (count : Nat)
  deriving DecidableEq, Repr

def HashInput.word : HashInput → UInt64
  | .int8 value => value.toUInt8.toUInt64
  | .int16 value => value.toUInt16.toUInt64
  | .int32 value => value.toUInt32.toUInt64
  | .int64 value => value.toUInt64
  | .uint16 value => value.toUInt64
  | .uint32 value => value.toUInt64
  | .uint64 value => value
  | .bool value => hash value
  | .text content => hash content
  | .kind number | .length number => UInt64.ofNat number

def HashInput.digest (inputs : List HashInput) : UInt64 :=
  inputs.foldl (fun state input => mixHash state input.word) 7

inductive Value where
  | byte (value : Int8)
  | short (value : Int16)
  | char (value : UInt16)
  | int (value : Int32)
  | long (value : Int64)
  | float (bits : UInt32)
  | double (bits : UInt64)
  | string (text : String)
  | type (descriptor : String)
  | enum (name : String)
  | bool (value : Bool)
  | null
  | array (values : List Value)
  /-- An annotation as a value: its dotted name and its named values. -/
  | nested (name : String) (values : List (String × Value))

abbrev NamedValues : Type := List (String × Value)

namespace Value

mutual

def same : Value → Value → Bool
  | .byte left, .byte right => left == right
  | .short left, .short right => left == right
  | .char left, .char right => left == right
  | .int left, .int right => left == right
  | .long left, .long right => left == right
  | .float left, .float right => left == right
  | .double left, .double right => left == right
  | .string left, .string right => left == right
  | .type left, .type right => left == right
  | .enum left, .enum right => left == right
  | .bool left, .bool right => left == right
  | .null, .null => true
  | .array left, .array right => sameList left right
  | .nested leftName left, .nested rightName right =>
      leftName == rightName && sameNamed left right
  | _, _ => false

def sameList : List Value → List Value → Bool
  | [], [] => true
  | left :: lefts, right :: rights => same left right && sameList lefts rights
  | _, _ => false

def sameNamed : List (String × Value) → List (String × Value) → Bool
  | [], [] => true
  | (leftName, left) :: lefts, (rightName, right) :: rights =>
      leftName == rightName && same left right && sameNamed lefts rights
  | _, _ => false

end

mutual

@[simp] theorem same_self : ∀ value : Value, same value value = true
  | .byte _ | .short _ | .char _ | .int _ | .long _ | .float _ | .double _
  | .string _ | .type _ | .enum _ | .bool _ | .null => by simp [same]
  | .array values => by simp [same, sameList_self values]
  | .nested name values => by simp [same, sameNamed_self values]

theorem sameList_self : ∀ values : List Value, sameList values values = true
  | [] => rfl
  | value :: rest => by simp [sameList, same_self value, sameList_self rest]

theorem sameNamed_self :
    ∀ values : List (String × Value), sameNamed values values = true
  | [] => rfl
  | (name, value) :: rest => by
      simp [sameNamed, same_self value, sameNamed_self rest]

end

mutual

theorem eq_of_same : ∀ left right : Value, same left right = true → left = right
  | .array left, right, equal => by
      cases right with
      | array right =>
          exact congrArg Value.array
            (eq_of_sameList left right (by simpa [same] using equal))
      | _ => simp [same] at equal
  | .nested leftName left, right, equal => by
      cases right with
      | nested rightName right =>
          simp only [same, Bool.and_eq_true, beq_iff_eq] at equal
          rw [equal.1, eq_of_sameNamed left right equal.2]
      | _ => simp [same] at equal
  | .byte _, right, equal | .short _, right, equal | .char _, right, equal
  | .int _, right, equal | .long _, right, equal | .float _, right, equal
  | .double _, right, equal | .string _, right, equal | .type _, right, equal
  | .enum _, right, equal | .bool _, right, equal | .null, right, equal => by
      cases right <;> simp_all [same]

theorem eq_of_sameList :
    ∀ left right : List Value, sameList left right = true → left = right
  | [], [], _ => rfl
  | [], _ :: _, equal => by simp [sameList] at equal
  | _ :: _, [], equal => by simp [sameList] at equal
  | left :: lefts, right :: rights, equal => by
      simp only [sameList, Bool.and_eq_true] at equal
      rw [eq_of_same left right equal.1, eq_of_sameList lefts rights equal.2]

theorem eq_of_sameNamed :
    ∀ left right : List (String × Value),
      sameNamed left right = true → left = right
  | [], [], _ => rfl
  | [], _ :: _, equal => by simp [sameNamed] at equal
  | _ :: _, [], equal => by simp [sameNamed] at equal
  | (leftName, left) :: lefts, (rightName, right) :: rights, equal => by
      simp only [sameNamed, Bool.and_eq_true, beq_iff_eq] at equal
      rw [equal.1.1, eq_of_same left right equal.1.2,
        eq_of_sameNamed lefts rights equal.2]

end

/-- The check decides equality. -/
@[simp] theorem same_iff_eq (left right : Value) :
    same left right = true ↔ left = right := by
  constructor
  · exact eq_of_same left right
  · intro equal
    rw [equal]
    exact same_self right

instance : DecidableEq Value :=
  fun left right => decidable_of_iff _ (same_iff_eq left right)

mutual

/-- What a hasher is given for a value: a number for its kind, then its
content.  Lists are preceded by their lengths. -/
def hashInputs : Value → List HashInput
  | .byte value => [.kind 0, .int8 value]
  | .short value => [.kind 1, .int16 value]
  | .char value => [.kind 2, .uint16 value]
  | .int value => [.kind 3, .int32 value]
  | .long value => [.kind 4, .int64 value]
  | .float bits => [.kind 5, .uint32 bits]
  | .double bits => [.kind 6, .uint64 bits]
  | .string text => [.kind 7, .text text]
  | .type descriptor => [.kind 8, .text descriptor]
  | .enum name => [.kind 9, .text name]
  | .bool value => [.kind 10, .bool value]
  | .null => [.kind 11]
  | .array values =>
      .kind 12 :: .length values.length :: listHashInputs values
  | .nested name values =>
      .kind 13 :: .text name :: .length values.length
        :: namedHashInputs values

def listHashInputs : List Value → List HashInput
  | [] => []
  | value :: rest => hashInputs value ++ listHashInputs rest

def namedHashInputs : List (String × Value) → List HashInput
  | [] => []
  | (name, value) :: rest =>
      .text name :: (hashInputs value ++ namedHashInputs rest)

end

end Value

namespace NamedValues

def insert (name : String) (value : Value) : NamedValues → NamedValues
  | [] => [(name, value)]
  | (otherName, otherValue) :: rest =>
      if name < otherName then (name, value) :: (otherName, otherValue) :: rest
      else if name = otherName then (name, value) :: rest
      else (otherName, otherValue) :: insert name value rest

/-- Named values from pairs in any order.  Of pairs with the same name the
last one counts. -/
def ofPairs (pairs : List (String × Value)) : NamedValues :=
  pairs.foldl (fun values pair => insert pair.1 pair.2 values) []

end NamedValues
end DexCensus
