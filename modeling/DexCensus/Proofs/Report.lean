/-
What the JSON report keeps of test methods, whatever faithful serializer writes
it.

A value is written with its kind, and no two values of a kind are written
alike except for numbers that are not finite, which all become null.  So two
lists of methods have the same report exactly if they differ at most in such
numbers, and a list without them is the only one of its report.
-/

import DexCensus.Proofs.Identity
import DexCensus.Proofs.Serializer

namespace DexCensus

namespace Value

def FiniteLeaf : Value → Prop
  | .float bits => Decimal.single.IsFinite bits.toNat
  | .double bits => Decimal.double.IsFinite bits.toNat
  | _ => True

inductive AllFinite : Value → Prop
  | leaf {value : Value} :
      value.isLeaf = true → value.FiniteLeaf → AllFinite value
  | array {values : List Value} :
      (∀ value ∈ values, AllFinite value) → AllFinite (.array values)
  | nested {name : String} {values : NamedValues} :
      (∀ pair ∈ values, AllFinite pair.2) → AllFinite (.nested name values)

/-- Two values are the same but for numbers that are not finite, where each may
have another one of the same precision. -/
inductive Alike : Value → Value → Prop
  | leaf {value : Value} : value.isLeaf = true → Alike value value
  | float {left right : UInt32} :
      ¬ Decimal.single.IsFinite left.toNat →
      ¬ Decimal.single.IsFinite right.toNat →
        Alike (.float left) (.float right)
  | double {left right : UInt64} :
      ¬ Decimal.double.IsFinite left.toNat →
      ¬ Decimal.double.IsFinite right.toNat →
        Alike (.double left) (.double right)
  | array {lefts rights : List Value} :
      List.Forall₂ Alike lefts rights → Alike (.array lefts) (.array rights)
  | nested {name : String} {lefts rights : NamedValues} :
      lefts.map Prod.fst = rights.map Prod.fst →
      List.Forall₂ Alike (lefts.map Prod.snd) (rights.map Prod.snd) →
        Alike (.nested name lefts) (.nested name rights)

end Value

structure NamedValues.Alike (lefts rights : NamedValues) : Prop where
  names : lefts.map Prod.fst = rights.map Prod.fst
  values : List.Forall₂ Value.Alike
    (lefts.map Prod.snd) (rights.map Prod.snd)

structure TestAnnotation.Alike (left right : TestAnnotation) : Prop where
  name : left.name = right.name
  values : left.values.Alike right.values
  inherited : left.inherited = right.inherited

structure TestMethod.Alike (left right : TestMethod) : Prop where
  testName : left.testName = right.testName
  annotations : List.Forall₂ TestAnnotation.Alike
    left.annotations right.annotations

def TestMethod.AllFinite (method : TestMethod) : Prop :=
  ∀ entry ∈ method.annotations, ∀ pair ∈ entry.values, pair.2.AllFinite

theorem forall₂_eq_of_mem {α : Type} {relation : α → α → Prop}
    {lefts rights : List α} (related : List.Forall₂ relation lefts rights)
    (each : ∀ left ∈ lefts, ∀ right, relation left right → left = right) :
    lefts = rights := by
  induction related with
  | nil => rfl
  | cons first _ ih =>
      rw [each _ List.mem_cons_self _ first,
        ih fun left member => each left (List.mem_cons_of_mem _ member)]

theorem NamedValues.eq_of_alike {lefts rights : NamedValues}
    (alike : lefts.Alike rights)
    (each : ∀ pair ∈ lefts, ∀ right, pair.2.Alike right → pair.2 = right) :
    lefts = rights := by
  have sameValues := forall₂_eq_of_mem alike.values (by
    intro left member right related
    obtain ⟨pair, inLefts, rfl⟩ := List.mem_map.mp member
    exact each pair inLefts right related)
  rw [← List.zip_unzip lefts, ← List.zip_unzip rights, List.unzip_eq_map,
    List.unzip_eq_map, alike.names, sameValues]

theorem Value.eq_of_alike (left : Value) :
    ∀ right, left.AllFinite → left.Alike right → left = right := by
  induction left using parts_induction with
  | leaf left isLeaf =>
      intro right finite alike
      cases alike with
      | leaf => rfl
      | float special | double special =>
          cases finite with
          | leaf _ isFinite => exact (special isFinite).elim
      | array | nested => cases isLeaf
  | array lefts ih =>
      intro right finite alike
      cases alike with
      | leaf => rfl
      | array related =>
          cases finite with
          | leaf isLeaf => cases isLeaf
          | array each =>
              rw [forall₂_eq_of_mem related fun left member right =>
                ih left member right (each left member)]
  | nested name lefts ih =>
      intro right finite alike
      cases alike with
      | leaf => rfl
      | nested names related =>
          cases finite with
          | leaf isLeaf => cases isLeaf
          | nested each =>
              rw [NamedValues.eq_of_alike ⟨names, related⟩
                fun pair member right =>
                  ih pair member right (each pair member)]

theorem TestMethod.eq_of_alike {left right : TestMethod}
    (finite : left.AllFinite) (alike : left.Alike right) : left = right := by
  have annotations := forall₂_eq_of_mem alike.annotations (by
    intro entry member other related
    have values := NamedValues.eq_of_alike related.values
      fun pair inValues other =>
        pair.2.eq_of_alike other (finite entry member pair inValues)
    cases entry
    cases other
    cases related.name
    cases related.inherited
    cases values
    rfl)
  cases left
  cases right
  cases alike.testName
  cases annotations
  rfl

/-! ### Documents of values -/

theorem map_eq_map_iff_forall₂ {α β : Type} {write : α → β}
    {relation : α → α → Prop} {lefts : List α}
    (each : ∀ left ∈ lefts, ∀ right,
      write left = write right ↔ relation left right) (rights : List α) :
    lefts.map write = rights.map write ↔
      List.Forall₂ relation lefts rights := by
  induction lefts generalizing rights with
  | nil => cases rights <;> simp
  | cons left lefts ih =>
      cases rights with
      | nil => simp
      | cons right rights =>
          rw [List.map_cons, List.map_cons, List.cons.injEq,
            List.forall₂_cons, each left List.mem_cons_self,
            ih fun other member => each other (List.mem_cons_of_mem _ member)]

@[simp] theorem Report.tagged_eq_iff {kind other : String}
    {content otherContent : Json} :
    tagged kind content = tagged other otherContent ↔
      kind = other ∧ content = otherContent := by
  simp [tagged]

@[simp] theorem Report.tagged_ne_bare (kind other : String)
    (content : Json) :
    tagged kind content ≠ .object [("type", .text other)] := by
  simp [tagged]

@[simp] theorem Report.bare_ne_tagged (kind other : String)
    (content : Json) :
    .object [("type", .text other)] ≠ tagged kind content := by
  simp [tagged]

private theorem Report.number_eq_iff {α : Type} {isFinite : α → Prop}
    {text? : α → Option String} (texts : NumberTexts isFinite text?)
    (left right : α) :
    number (text? left) = number (text? right) ↔
      left = right ∨ ¬ isFinite left ∧ ¬ isFinite right := by
  rw [← texts.finite, ← texts.finite]
  constructor
  · intro same
    cases first : text? left with
    | none =>
        cases second : text? right with
        | none => exact Or.inr ⟨rfl, rfl⟩
        | some digits =>
            rw [first, second] at same
            cases same
    | some digits =>
        cases second : text? right with
        | none =>
            rw [first, second] at same
            cases same
        | some other =>
            rw [first, second] at same
            cases same
            exact Or.inl (texts.distinct first second)
  · rintro (rfl | ⟨first, second⟩)
    · rfl
    · rw [first, second]

namespace Json

def readInteger : List Char → Int
  | '-' :: digits => -(Nat.ofDigitChars 10 digits 0 : Nat)
  | digits => (Nat.ofDigitChars 10 digits 0 : Nat)

private theorem readInteger_repr (value : Int) :
    readInteger value.repr.toList = value := by
  rw [Int.repr_eq_if]
  split
  · rename_i notNegative
    have noSign (digits : List Char) :
        value.toNat.repr.toList ≠ '-' :: digits := by
      rw [Nat.toList_repr]
      intro signed
      have isDigit := Decimal.allDigits_toDigits value.toNat '-'
        (signed ▸ List.mem_cons_self)
      cases isDigit
    rw [readInteger, Nat.toList_repr, Nat.ofDigitChars_ten_toDigits,
      Int.toNat_of_nonneg notNegative]
    exact noSign
  · rename_i negative
    have signed : ("-" ++ (-value).toNat.repr).toList =
        '-' :: Nat.toDigits 10 (-value).toNat := by
      rw [String.toList_append, Nat.toList_repr]
      rfl
    rw [signed, readInteger, Nat.ofDigitChars_ten_toDigits]
    omega

@[simp] theorem integer_inj {left right : Int} :
    integer left = integer right ↔ left = right := by
  constructor
  · intro same
    have sameText : left.repr = right.repr := Json.number.inj same
    rw [← readInteger_repr left, sameText, readInteger_repr]
  · intro same
    rw [same]

theorem wellFormed_integer (value : Int) : (integer value).WellFormed := by
  have digits := Decimal.allDigits_toDigits
  refine .number ?_ ?_
  · change value.repr ≠ ""
    rw [Int.repr_eq_if]
    split <;> simp
  · intro char member
    change char ∈ value.repr.toList at member
    rw [Int.repr_eq_if] at member
    split at member
    · rw [Nat.toList_repr] at member
      exact (digits _).isNumeric char member
    · rw [String.toList_append, Nat.toList_repr] at member
      rcases List.mem_append.mp member with sign | digit
      · rw [List.mem_singleton.mp sign]
        rfl
      · exact (digits _).isNumeric char digit

end Json

namespace Serializer

open Report

variable {serializer : Serializer}

theorem ofValues_eq_map (values : List Value) :
    serializer.ofValues values = values.map serializer.ofValue := by
  induction values with
  | nil => rfl
  | cons value rest ih => rw [ofValues, ih, List.map_cons]

theorem ofNamed_eq_iff {lefts : NamedValues}
    (each : ∀ pair ∈ lefts, ∀ right,
      serializer.ofValue pair.2 = serializer.ofValue right ↔
        pair.2.Alike right)
    (rights : NamedValues) :
    serializer.ofNamed lefts = serializer.ofNamed rights ↔
      lefts.Alike rights := by
  induction lefts generalizing rights with
  | nil =>
      cases rights with
      | nil => exact ⟨fun _ => ⟨rfl, .nil⟩, fun _ => rfl⟩
      | cons right rights =>
          constructor
          · intro same
            cases same
          · intro alike
            cases alike.names
  | cons left lefts ih =>
      cases rights with
      | nil =>
          constructor
          · intro same
            cases same
          · intro alike
            cases alike.names
      | cons right rights =>
          rw [ofNamed, ofNamed, List.cons.injEq, Prod.mk.injEq,
            each left List.mem_cons_self,
            ih fun pair member => each pair (List.mem_cons_of_mem left member)]
          constructor
          · rintro ⟨⟨name, value⟩, alike⟩
            exact ⟨congrArg₂ List.cons name alike.names,
              .cons value alike.values⟩
          · intro alike
            obtain ⟨name, names⟩ := List.cons.inj alike.names
            obtain ⟨value, values⟩ := List.forall₂_cons.mp alike.values
            exact ⟨⟨name, value⟩, names, values⟩

private theorem ofValue_float (bits : UInt32) :
    serializer.ofValue (.float bits) =
      tagged "float" (number (serializer.single bits)) := by
  rw [ofValue]

private theorem ofValue_double (bits : UInt64) :
    serializer.ofValue (.double bits) =
      tagged "double" (number (serializer.double bits)) := by
  rw [ofValue]

private theorem ofLeaf_eq_iff (faithful : serializer.Faithful) {left : Value}
    (isLeaf : left.isLeaf = true) (right : Value) :
    serializer.ofValue left = serializer.ofValue right ↔ left.Alike right := by
  constructor
  · intro same
    cases left with
    | float bits =>
        cases right with
        | float other =>
            rw [ofValue_float, ofValue_float, tagged_eq_iff,
              number_eq_iff faithful.single] at same
            rcases same.2 with rfl | ⟨special, otherSpecial⟩
            · exact .leaf rfl
            · exact .float special otherSpecial
        | _ => simp [ofValue] at same
    | double bits =>
        cases right with
        | double other =>
            rw [ofValue_double, ofValue_double, tagged_eq_iff,
              number_eq_iff faithful.double] at same
            rcases same.2 with rfl | ⟨special, otherSpecial⟩
            · exact .leaf rfl
            · exact .double special otherSpecial
        | _ => simp [ofValue] at same
    | array | nested => cases isLeaf
    | null =>
        cases right with
        | null => exact .leaf rfl
        | _ => simp [ofValue] at same
    | _ =>
        cases right <;>
          simp [ofValue, Int8.toInt_inj, Int16.toInt_inj, UInt16.toNat_inj,
            Int32.toInt_inj, Int64.toInt_inj] at same
        all_goals
          subst same
          exact .leaf rfl
  · intro alike
    cases alike with
    | leaf => rfl
    | float special otherSpecial =>
        rw [ofValue_float, ofValue_float, (number_eq_iff faithful.single _ _).mpr
          (Or.inr ⟨special, otherSpecial⟩)]
    | double special otherSpecial =>
        rw [ofValue_double, ofValue_double,
          (number_eq_iff faithful.double _ _).mpr
            (Or.inr ⟨special, otherSpecial⟩)]
    | array | nested => cases isLeaf

/-- Values are written alike exactly if they are alike. -/
theorem ofValue_eq_iff (faithful : serializer.Faithful) (left : Value) :
    ∀ right, serializer.ofValue left = serializer.ofValue right ↔
      left.Alike right := by
  induction left using Value.parts_induction with
  | leaf left isLeaf => exact ofLeaf_eq_iff faithful isLeaf
  | array lefts ih =>
      intro right
      constructor
      · intro same
        cases right with
        | array rights =>
            rw [ofValue, ofValue, tagged_eq_iff, Json.array.injEq,
              ofValues_eq_map, ofValues_eq_map,
              map_eq_map_iff_forall₂ ih] at same
            exact .array same.2
        | _ => simp [ofValue] at same
      · intro alike
        cases alike with
        | leaf => rfl
        | array related =>
            rw [ofValue, ofValue, ofValues_eq_map, ofValues_eq_map,
              (map_eq_map_iff_forall₂ ih _).mpr related]
  | nested name lefts ih =>
      intro right
      constructor
      · intro same
        cases right with
        | nested other rights =>
            rw [ofValue, ofValue, tagged_eq_iff] at same
            simp only [Json.object.injEq, List.cons.injEq, Prod.mk.injEq,
              Json.text.injEq, true_and, and_true] at same
            obtain ⟨rfl, sameValues⟩ := same
            have alike := (ofNamed_eq_iff ih rights).mp sameValues
            exact .nested alike.names alike.values
        | _ => simp [ofValue] at same
      · intro alike
        cases alike with
        | leaf => rfl
        | nested names related =>
            rw [ofValue, ofValue, (ofNamed_eq_iff ih _).mpr ⟨names, related⟩]

private theorem ofEntry_eq_iff (faithful : serializer.Faithful)
    (left right : TestAnnotation) :
    serializer.ofEntry left = serializer.ofEntry right ↔ left.Alike right := by
  have values := ofNamed_eq_iff (fun pair (_ : pair ∈ left.values) =>
    ofValue_eq_iff faithful pair.2) right.values
  unfold ofEntry
  simp only [Json.object.injEq, List.cons.injEq, Prod.mk.injEq,
    Json.text.injEq, Json.bool.injEq, true_and, and_true, values]
  constructor
  · intro ⟨name, alike, inherited⟩
    exact ⟨name, alike, inherited⟩
  · intro ⟨name, alike, inherited⟩
    exact ⟨name, alike, inherited⟩

private theorem ofMethod_eq_iff (faithful : serializer.Faithful)
    (left right : TestMethod) :
    serializer.ofMethod left = serializer.ofMethod right ↔
      left.Alike right := by
  unfold ofMethod
  simp only [Json.object.injEq, List.cons.injEq, Prod.mk.injEq,
    Json.text.injEq, Json.array.injEq, true_and, and_true]
  rw [map_eq_map_iff_forall₂ fun entry _ => ofEntry_eq_iff faithful entry]
  constructor
  · intro ⟨testName, annotations⟩
    exact ⟨testName, annotations⟩
  · intro ⟨testName, annotations⟩
    exact ⟨testName, annotations⟩

private theorem ofMethods_eq_iff (faithful : serializer.Faithful)
    (lefts rights : List TestMethod) :
    serializer.ofMethods lefts = serializer.ofMethods rights ↔
      List.Forall₂ TestMethod.Alike lefts rights := by
  unfold ofMethods
  rw [Json.array.injEq,
    map_eq_map_iff_forall₂ fun method _ => ofMethod_eq_iff faithful method]

/-! ### Reports -/

theorem wellFormed_number {α : Type} {isFinite : α → Prop}
    {text? : α → Option String} (texts : NumberTexts isFinite text?)
    (bits : α) : (number (text? bits)).WellFormed := by
  cases written : text? bits with
  | none => exact .null
  | some digits => exact .number (texts.nonempty written) (texts.numeric written)

theorem wellFormed_tagged (kind : String) {content : Json}
    (wellFormed : content.WellFormed) : (tagged kind content).WellFormed := by
  refine .object ?_
  simp only [List.forall_mem_cons]
  exact ⟨.text, wellFormed, by simp⟩

theorem wellFormed_ofNamed {values : NamedValues}
    (each : ∀ pair ∈ values, (serializer.ofValue pair.2).WellFormed) :
    (Json.object (serializer.ofNamed values)).WellFormed := by
  refine .object ?_
  induction values with
  | nil => simp [ofNamed]
  | cons pair rest ih =>
      rw [ofNamed, List.forall_mem_cons]
      exact ⟨each pair List.mem_cons_self,
        ih fun other member => each other (List.mem_cons_of_mem pair member)⟩

theorem wellFormed_ofValue (faithful : serializer.Faithful) (value : Value) :
    (serializer.ofValue value).WellFormed := by
  induction value using Value.parts_induction with
  | leaf value isLeaf =>
      cases value with
      | array | nested => cases isLeaf
      | float bits =>
          rw [ofValue]
          exact wellFormed_tagged _ (wellFormed_number faithful.single bits)
      | double bits =>
          rw [ofValue]
          exact wellFormed_tagged _ (wellFormed_number faithful.double bits)
      | null =>
          rw [ofValue]
          refine .object ?_
          simp only [List.forall_mem_cons]
          exact ⟨.text, by simp⟩
      | string | type | enum =>
          rw [ofValue]
          exact wellFormed_tagged _ .text
      | bool =>
          rw [ofValue]
          exact wellFormed_tagged _ .bool
      | _ =>
          rw [ofValue]
          exact wellFormed_tagged _ (Json.wellFormed_integer _)
  | array values ih =>
      rw [ofValue, ofValues_eq_map]
      refine wellFormed_tagged _ (.array ?_)
      rw [List.forall_mem_map]
      exact ih
  | nested name values ih =>
      rw [ofValue]
      refine wellFormed_tagged _ (.object ?_)
      simp only [List.forall_mem_cons]
      exact ⟨.text, wellFormed_ofNamed ih, by simp⟩

theorem wellFormed_ofMethods (faithful : serializer.Faithful)
    (methods : List TestMethod) : (serializer.ofMethods methods).WellFormed := by
  refine .array ?_
  rw [List.forall_mem_map]
  intro method _
  refine .object ?_
  simp only [List.forall_mem_cons]
  refine ⟨.text, .array ?_, by simp⟩
  rw [List.forall_mem_map]
  intro entry _
  refine .object ?_
  simp only [List.forall_mem_cons]
  exact ⟨.text,
    wellFormed_ofNamed fun pair _ => wellFormed_ofValue faithful pair.2,
    .bool, by simp⟩

private theorem Faithful.pretty_inj (faithful : serializer.Faithful)
    {left right : Json} (leftForm : left.WellFormed)
    (rightForm : right.WellFormed) :
    serializer.pretty left = serializer.pretty right ↔ left = right := by
  constructor
  · intro same
    have written := faithful.written right
    rw [← same] at written
    exact Json.eq_of_padded_spells faithful.literal faithful.reversible
      leftForm rightForm (faithful.written left) written
  · intro same
    rw [same]

private theorem pretty_ofMethods_eq_iff (faithful : serializer.Faithful)
    (lefts rights : List TestMethod) :
    serializer.pretty (serializer.ofMethods lefts) =
        serializer.pretty (serializer.ofMethods rights) ↔
      List.Forall₂ TestMethod.Alike lefts rights := by
  rw [faithful.pretty_inj (wellFormed_ofMethods faithful lefts)
    (wellFormed_ofMethods faithful rights), ofMethods_eq_iff faithful]

private theorem render_json_eq_iff (lefts rights : List TestMethod) :
    serializer.render .json lefts = serializer.render .json rights ↔
      serializer.pretty (serializer.ofMethods lefts) =
        serializer.pretty (serializer.ofMethods rights) := by
  unfold render
  constructor
  · intro same
    have sameCharacters := congrArg String.toList same
    rw [String.toList_append, String.toList_append] at sameCharacters
    exact String.toList_inj.mp (List.append_cancel_right sameCharacters)
  · intro same
    rw [same]

end Serializer

namespace Report

/-- Whatever faithful serializer writes it, the JSON report, and the document
without the new line at its end, lose nothing but which number that is not
finite stood in a place. -/
theorem json_report_faithful (serializer : Serializer)
    (faithful : serializer.Faithful) (lefts rights : List TestMethod) :
    (serializer.render .json lefts = serializer.render .json rights ↔
      List.Forall₂ TestMethod.Alike lefts rights) ∧
    (serializer.pretty (serializer.ofMethods lefts) =
        serializer.pretty (serializer.ofMethods rights) ↔
      List.Forall₂ TestMethod.Alike lefts rights) ∧
    ((∀ method ∈ lefts, method.AllFinite) →
      ((serializer.render .json lefts = serializer.render .json rights ↔
          lefts = rights) ∧
        (serializer.pretty (serializer.ofMethods lefts) =
            serializer.pretty (serializer.ofMethods rights) ↔
          lefts = rights))) := by
  rw [Serializer.render_json_eq_iff]
  have alike := Serializer.pretty_ofMethods_eq_iff faithful lefts rights
  refine ⟨alike, alike, ?_⟩
  intro finite
  have onlyOne : serializer.pretty (serializer.ofMethods lefts) =
      serializer.pretty (serializer.ofMethods rights) ↔ lefts = rights := by
    constructor
    · intro same
      exact forall₂_eq_of_mem (alike.mp same)
        fun method member _ => TestMethod.eq_of_alike (finite method member)
    · intro same
      rw [same]
  exact ⟨onlyOne, onlyOne⟩

def annotated (values : List Value) : TestMethod :=
  { testName := "C#test"
    annotations :=
      [{ name := "A", values := [("v", .array values)], inherited := false }] }

/-- The number one as a byte and as an integer, next to one and a half; and a
NaN and an infinity, next to null; as the program's own serializer writes
them. -/
theorem annotated_reports :
    standard.Faithful ∧
    render .json [annotated [.byte 1, .float 0x3fc00000]] ≠
      render .json [annotated [.int 1, .float 0x3fc00000]] ∧
    render .json [annotated [.null, .float 0x7fc00000]] =
      render .json [annotated [.null, .float 0x7f800000]] := by
  refine ⟨standard_faithful, ?_, ?_⟩
  · have number : Decimal.single.IsFinite (0x3fc00000 : UInt32).toNat := by
      decide
    have finite : ∀ method ∈ [annotated [.byte 1, .float 0x3fc00000]],
        method.AllFinite := by
      simp only [TestMethod.AllFinite, annotated, List.forall_mem_singleton]
      refine .array ?_
      simp only [List.forall_mem_cons]
      exact ⟨.leaf rfl trivial, .leaf rfl number, by simp⟩
    obtain ⟨_, _, onlyOne⟩ := json_report_faithful standard standard_faithful
      [annotated [.byte 1, .float 0x3fc00000]]
      [annotated [.int 1, .float 0x3fc00000]]
    unfold render
    rw [ne_eq, (onlyOne finite).1]
    simp [annotated]
  · obtain ⟨alike, _⟩ := json_report_faithful standard standard_faithful
      [annotated [.null, .float 0x7fc00000]]
      [annotated [.null, .float 0x7f800000]]
    have numbers : (Value.float 0x7fc00000).Alike (.float 0x7f800000) :=
      .float (by decide) (by decide)
    have array : (Value.array [.null, .float 0x7fc00000]).Alike
        (.array [.null, .float 0x7f800000]) :=
      .array (.cons (.leaf rfl) (.cons numbers .nil))
    exact alike.mpr (.cons ⟨rfl, .cons ⟨rfl, ⟨rfl, .cons array .nil⟩, rfl⟩
      .nil⟩ .nil)

end Report
end DexCensus
