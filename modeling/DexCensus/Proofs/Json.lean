/-
A JSON text is a text of one document.

The grammar leaves blanks free.  Where a document ends can still be told: its
first character tells what kind of document it is, text ends at the first quote
that no backslash takes with it, and a number ends where something else than a
number follows.  So two texts that go on alike are texts of one document, if
the literals of different texts differ.
-/

import DexCensus.Json
import DexCensus.Proofs.Decimal.Numeral

namespace DexCensus
namespace Json

def isBlank (char : Char) : Bool :=
  char == ' ' || char == '\n' || char == '\r' || char == '\t'

def Blank (text : List Char) : Prop :=
  ∀ char ∈ text, isBlank char = true

/-- What may stand between quotes: a quote only behind a backslash, which takes
the next character with it. -/
inductive LiteralBody : List Char → Prop
  | nil : LiteralBody []
  | plain {char : Char} {rest : List Char} :
      char ≠ '"' → char ≠ '\\' → LiteralBody rest → LiteralBody (char :: rest)
  | escaped {char : Char} {rest : List Char} :
      LiteralBody rest → LiteralBody ('\\' :: char :: rest)

inductive Literal : List Char → Prop
  | quoted {body : List Char} :
      LiteralBody body → Literal ('"' :: (body ++ ['"']))

section Grammar

variable {α : Type} (spells : List Char → α → Prop)

inductive Padded : List Char → α → Prop
  | blanks {before text after : List Char} {item : α} :
      Blank before → spells text item → Blank after →
        Padded (before ++ (text ++ after)) item

inductive Named (quoted : String → String) :
    List Char → String × α → Prop
  | colon {before between text : List Char} {name : String} {item : α} :
      Blank before → Blank between → Padded spells text item →
        Named quoted
          (before ++ ((quoted name).toList ++ (between ++ ':' :: text)))
          (name, item)

inductive Separated : List Char → List α → Prop
  | last {text : List Char} {item : α} :
      spells text item → Separated text [item]
  | comma {text rest : List Char} {item : α} {others : List α} :
      spells text item → Separated rest others →
        Separated (text ++ ',' :: rest) (item :: others)

inductive Bracketed (opening closing : Char) : List Char → List α → Prop
  | empty {gap : List Char} :
      Blank gap → Bracketed opening closing (opening :: (gap ++ [closing])) []
  | filled {text : List Char} {items : List α} :
      Separated spells text items →
        Bracketed opening closing (opening :: (text ++ [closing])) items

end Grammar

/-- The texts that stand for a document, when text is written by `quoted`. -/
inductive Spells (quoted : String → String) : List Char → Json → Prop
  | null : Spells quoted "null".toList .null
  | true : Spells quoted "true".toList (.bool true)
  | false : Spells quoted "false".toList (.bool false)
  | number {digits : String} : Spells quoted digits.toList (.number digits)
  | text {value : String} : Spells quoted (quoted value).toList (.text value)
  | array {text : List Char} {elements : List Json} :
      Bracketed (Padded (Spells quoted)) '[' ']' text elements →
        Spells quoted text (.array elements)
  | object {text : List Char} {members : List (String × Json)} :
      Bracketed (Named (Spells quoted) quoted) '\x7b' '\x7d' text members →
        Spells quoted text (.object members)

/-- The numbers of a document are given by texts that look like numbers. -/
inductive WellFormed : Json → Prop
  | null : WellFormed .null
  | bool {value : Bool} : WellFormed (.bool value)
  | number {digits : String} :
      digits ≠ "" → (∀ char ∈ digits.toList, Decimal.isNumeric char = true) →
        WellFormed (.number digits)
  | text {value : String} : WellFormed (.text value)
  | array {elements : List Json} :
      (∀ element ∈ elements, WellFormed element) →
        WellFormed (.array elements)
  | object {members : List (String × Json)} :
      (∀ member ∈ members, WellFormed member.2) →
        WellFormed (.object members)

inductive Kind where
  | null
  | bool
  | number
  | text
  | array
  | object

def kind : Json → Kind
  | .null => .null
  | .bool _ => .bool
  | .number _ => .number
  | .text _ => .text
  | .array _ => .array
  | .object _ => .object

def kindOf? (first : Char) : Option Kind :=
  if first = 'n' then some .null
  else if first = 't' ∨ first = 'f' then some .bool
  else if first = '"' then some .text
  else if first = '[' then some .array
  else if first = '\x7b' then some .object
  else if Decimal.isNumeric first then some .number
  else none

private theorem kindOf?_isNumeric {char : Char}
    (numeric : Decimal.isNumeric char = true) :
    kindOf? char = some .number := by
  have apart (other : Char) (isOther : Decimal.isNumeric other = false) :
      char ≠ other := by
    rintro rfl
    rw [numeric] at isOther
    cases isOther
  simp [kindOf?, numeric, apart 'n' rfl, apart 't' rfl, apart 'f' rfl,
    apart '"' rfl, apart '[' rfl, apart '\x7b' rfl]

private theorem kindOf?_isBlank {char : Char} (blank : isBlank char = true) :
    kindOf? char = none := by
  simp only [isBlank, Bool.or_eq_true, beq_iff_eq] at blank
  rcases blank with ((rfl | rfl) | rfl) | rfl <;> rfl

def Tells (kind : Kind) (text : List Char) : Prop :=
  ∃ first rest, text = first :: rest ∧ kindOf? first = some kind

variable {quoted : String → String}

theorem Literal.tells {text : List Char} (literal : Literal text) :
    Tells .text text := by
  cases literal
  exact ⟨'"', _, rfl, rfl⟩

theorem Spells.tells (literal : ∀ value, Literal (quoted value).toList)
    {document : Json} {text : List Char} (wellFormed : WellFormed document)
    (written : Spells quoted text document) : Tells document.kind text := by
  cases written with
  | null => exact ⟨'n', _, rfl, rfl⟩
  | true => exact ⟨'t', _, rfl, rfl⟩
  | false => exact ⟨'f', _, rfl, rfl⟩
  | number =>
      cases wellFormed with
      | number nonempty numeric =>
          obtain ⟨first, rest, starts⟩ := List.exists_cons_of_ne_nil
            (String.toList_eq_nil_iff.not.mpr nonempty)
          rw [starts] at numeric ⊢
          exact ⟨first, rest, rfl,
            kindOf?_isNumeric (numeric first List.mem_cons_self)⟩
  | text => exact (literal _).tells
  | array bracketed => cases bracketed <;> exact ⟨'[', _, rfl, rfl⟩
  | object bracketed => cases bracketed <;> exact ⟨'\x7b', _, rfl, rfl⟩

theorem Tells.append {kind : Kind} {text : List Char} (tells : Tells kind text)
    (rest : List Char) : Tells kind (text ++ rest) := by
  obtain ⟨first, more, rfl, known⟩ := tells
  exact ⟨first, more ++ rest, rfl, known⟩

private theorem Tells.unique {kind other : Kind} {text otherText : List Char}
    {rest otherRest : List Char} (tells : Tells kind text)
    (otherTells : Tells other otherText)
    (same : text ++ rest = otherText ++ otherRest) : kind = other := by
  obtain ⟨first, more, rfl, known⟩ := tells
  obtain ⟨otherFirst, otherMore, rfl, otherKnown⟩ := otherTells
  rw [← (List.cons.inj same).1, known] at otherKnown
  exact Option.some.inj otherKnown

/-- What follows a run of characters of a kind does not go on with them. -/
def Ends (ofKind : Char → Bool) (rest : List Char) : Prop :=
  ∀ char ∈ rest.head?, ofKind char = false

theorem run_cancel {ofKind : Char → Bool} {left right : List Char}
    {rest otherRest : List Char} (allLeft : ∀ char ∈ left, ofKind char = true)
    (allRight : ∀ char ∈ right, ofKind char = true) (ends : Ends ofKind rest)
    (otherEnds : Ends ofKind otherRest)
    (same : left ++ rest = right ++ otherRest) :
    left = right ∧ rest = otherRest := by
  obtain ⟨leftTaken, leftDropped⟩ := Decimal.span_of_all allLeft ends
  obtain ⟨rightTaken, rightDropped⟩ := Decimal.span_of_all allRight otherEnds
  rw [same] at leftTaken leftDropped
  exact ⟨leftTaken.symm.trans rightTaken, leftDropped.symm.trans rightDropped⟩

theorem Tells.ends_blank {kind : Kind} {text : List Char}
    (tells : Tells kind text) (rest : List Char) :
    Ends isBlank (text ++ rest) := by
  obtain ⟨first, more, rfl, known⟩ := tells
  rintro char ⟨⟩
  rw [Bool.eq_false_iff]
  intro blank
  rw [kindOf?_isBlank blank] at known
  cases known

def Delimited (rest : List Char) : Prop :=
  ∀ char ∈ rest.head?, char = ',' ∨ char = ']' ∨ char = '\x7d'

private theorem Delimited.ends_blank {rest : List Char}
    (delimited : Delimited rest) :
    Ends isBlank rest := by
  intro char first
  rcases delimited char first with rfl | rfl | rfl <;> rfl

private theorem Blank.ends_numeric {gap rest : List Char} (blank : Blank gap)
    (delimited : Delimited rest) : Ends Decimal.isNumeric (gap ++ rest) := by
  intro char first
  cases gap with
  | nil => rcases delimited char first with rfl | rfl | rfl <;> rfl
  | cons other more =>
      cases first
      have isBlank := blank char List.mem_cons_self
      simp only [Json.isBlank, Bool.or_eq_true, beq_iff_eq] at isBlank
      rcases isBlank with ((rfl | rfl) | rfl) | rfl <;> rfl

theorem LiteralBody.cancel {left right rest otherRest : List Char}
    (body : LiteralBody left) (otherBody : LiteralBody right)
    (same : left ++ '"' :: rest = right ++ '"' :: otherRest) :
    left = right ∧ rest = otherRest := by
  induction body generalizing right with
  | nil =>
      cases otherBody with
      | nil => exact ⟨rfl, (List.cons.inj same).2⟩
      | plain noQuote => exact (noQuote (List.cons.inj same).1.symm).elim
      | escaped => exact absurd (List.cons.inj same).1 (by decide)
  | plain noQuote noEscape _ ih =>
      cases otherBody with
      | nil => exact (noQuote (List.cons.inj same).1).elim
      | plain _ _ others =>
          obtain ⟨sameChar, same⟩ := List.cons.inj same
          obtain ⟨sameBody, sameRest⟩ := ih others same
          exact ⟨by rw [sameChar, sameBody], sameRest⟩
      | escaped => exact (noEscape (List.cons.inj same).1).elim
  | escaped _ ih =>
      cases otherBody with
      | nil => exact absurd (List.cons.inj same).1 (by decide)
      | plain _ noEscape => exact (noEscape (List.cons.inj same).1.symm).elim
      | escaped others =>
          obtain ⟨sameChar, same⟩ := List.cons.inj (List.cons.inj same).2
          obtain ⟨sameBody, sameRest⟩ := ih others same
          exact ⟨by rw [sameChar, sameBody], sameRest⟩

theorem Literal.cancel {left right rest otherRest : List Char}
    (literal : Literal left) (otherLiteral : Literal right)
    (same : left ++ rest = right ++ otherRest) :
    left = right ∧ rest = otherRest := by
  obtain ⟨body⟩ := literal
  obtain ⟨otherBody⟩ := otherLiteral
  simp only [List.cons_append, List.append_assoc, List.nil_append,
    List.cons.injEq, true_and] at same
  obtain ⟨rfl, sameRest⟩ := body.cancel otherBody same
  exact ⟨rfl, sameRest⟩

/-! ### Pieces of a document -/

/-- Two items are written alike only if they are equal, and then the same
follows. -/
def Cancels {α : Type} (spells : List Char → α → Prop)
    (follows : List Char → Prop) (left right : α) : Prop :=
  ∀ text otherText rest otherRest, spells text left → spells otherText right →
    follows rest → follows otherRest →
      text ++ rest = otherText ++ otherRest → left = right ∧ rest = otherRest

section Pieces

variable {α : Type} {spells : List Char → α → Prop}

theorem Padded.cancels {left right : α} {kind other : Kind}
    (tells : ∀ text, spells text left → Tells kind text)
    (otherTells : ∀ text, spells text right → Tells other text)
    (cancels : Cancels spells (Ends Decimal.isNumeric) left right) :
    Cancels (Padded spells) Delimited left right := by
  rintro _ _ rest otherRest ⟨before, written, after⟩
    ⟨otherBefore, otherWritten, otherAfter⟩ delimited otherDelimited same
  simp only [List.append_assoc] at same
  obtain ⟨_, same⟩ := run_cancel before otherBefore
    ((tells _ written).ends_blank _) ((otherTells _ otherWritten).ends_blank _)
    same
  obtain ⟨sameItem, same⟩ := cancels _ _ _ _ written otherWritten
    (after.ends_numeric delimited) (otherAfter.ends_numeric otherDelimited)
    same
  exact ⟨sameItem, (run_cancel after otherAfter delimited.ends_blank
    otherDelimited.ends_blank same).2⟩

theorem Named.cancels (literal : ∀ value, Literal (quoted value).toList)
    (distinct : Function.Injective quoted) {left right : String × α}
    (cancels : Cancels (Padded spells) Delimited left.2 right.2) :
    Cancels (Named spells quoted) Delimited left right := by
  rintro _ _ rest otherRest ⟨before, between, padded⟩
    ⟨otherBefore, otherBetween, otherPadded⟩ delimited otherDelimited same
  simp only [List.append_assoc, List.cons_append] at same
  obtain ⟨_, same⟩ := run_cancel before otherBefore
    ((literal _).tells.ends_blank _) ((literal _).tells.ends_blank _) same
  obtain ⟨sameName, same⟩ := (literal _).cancel (literal _) same
  have atColon (rest : List Char) : Ends isBlank (':' :: rest) := by
    rintro char ⟨⟩
    rfl
  obtain ⟨_, same⟩ := run_cancel between otherBetween (atColon _) (atColon _)
    same
  obtain ⟨sameItem, sameRest⟩ := cancels _ _ _ _ padded otherPadded delimited
    otherDelimited (List.cons.inj same).2
  exact ⟨Prod.ext (distinct (String.toList_inj.mp sameName)) sameItem,
    sameRest⟩

theorem Separated.cancel {closing : Char}
    (closes : closing = ']' ∨ closing = '\x7d') {lefts rights : List α}
    {text otherText rest otherRest : List Char}
    (separated : Separated spells text lefts)
    (otherSeparated : Separated spells otherText rights)
    (each : ∀ left ∈ lefts, ∀ right ∈ rights,
      Cancels spells Delimited left right)
    (same : text ++ closing :: rest = otherText ++ closing :: otherRest) :
    lefts = rights ∧ rest = otherRest := by
  have noComma : closing ≠ ',' := by
    rcases closes with rfl | rfl <;> decide
  have atClosing (rest : List Char) : Delimited (closing :: rest) := by
    rintro char ⟨⟩
    exact Or.inr closes
  have atComma (rest : List Char) : Delimited (',' :: rest) := by
    rintro char ⟨⟩
    exact Or.inl rfl
  induction separated generalizing rights otherText with
  | last written =>
      cases otherSeparated with
      | last otherWritten =>
          obtain ⟨rfl, same⟩ := each _ List.mem_cons_self _ List.mem_cons_self
            _ _ _ _ written otherWritten (atClosing _) (atClosing _) same
          exact ⟨rfl, (List.cons.inj same).2⟩
      | comma otherWritten _ =>
          rw [List.append_assoc] at same
          obtain ⟨_, same⟩ := each _ List.mem_cons_self _ List.mem_cons_self
            _ _ _ _ written otherWritten (atClosing _) (atComma _) same
          exact (noComma (List.cons.inj same).1).elim
  | comma written _ ih =>
      rw [List.append_assoc] at same
      cases otherSeparated with
      | last otherWritten =>
          obtain ⟨_, same⟩ := each _ List.mem_cons_self _ List.mem_cons_self
            _ _ _ _ written otherWritten (atComma _) (atClosing _) same
          exact (noComma (List.cons.inj same).1.symm).elim
      | comma otherWritten others =>
          rw [List.append_assoc] at same
          obtain ⟨rfl, same⟩ := each _ List.mem_cons_self _ List.mem_cons_self
            _ _ _ _ written otherWritten (atComma _) (atComma _) same
          obtain ⟨rfl, sameRest⟩ := ih others
            (fun left inLeft right inRight =>
              each left (List.mem_cons_of_mem _ inLeft) right
                (List.mem_cons_of_mem _ inRight))
            (List.cons.inj same).2
          exact ⟨rfl, sameRest⟩

def Opens (text : List Char) : Prop :=
  ∃ before rest kind, text = before ++ rest ∧ Blank before ∧ Tells kind rest

theorem Opens.append {text : List Char} (opens : Opens text)
    (rest : List Char) : Opens (text ++ rest) := by
  obtain ⟨before, _, kind, rfl, blank, first, more, rfl, known⟩ := opens
  exact ⟨before, first :: (more ++ rest), kind, by simp, blank, first, _, rfl,
    known⟩

private theorem Separated.opens {items : List α} {text : List Char}
    (separated : Separated spells text items)
    (each : ∀ text item, spells text item → item ∈ items → Opens text) :
    Opens text := by
  cases separated with
  | last written => exact each _ _ written List.mem_cons_self
  | comma written => exact (each _ _ written List.mem_cons_self).append _

private theorem Opens.ne_closing {closing : Char}
    (closes : closing = ']' ∨ closing = '\x7d') {text gap rest : List Char}
    (opens : Opens text) (blank : Blank gap) :
    gap ++ closing :: rest ≠ text := by
  rintro rfl
  obtain ⟨before, more, kind, same, otherBlank, tells⟩ := opens
  have atClosing : Ends isBlank (closing :: rest) := by
    rintro char ⟨⟩
    rcases closes with rfl | rfl <;> rfl
  have endsMore := tells.ends_blank []
  rw [List.append_nil] at endsMore
  obtain ⟨_, rfl⟩ := run_cancel blank otherBlank atClosing endsMore same
  obtain ⟨_, _, starts, known⟩ := tells
  cases starts
  rcases closes with rfl | rfl <;> cases known

private theorem Bracketed.exists_body {opening closing : Char}
    {items : List α} {text : List Char}
    (bracketed : Bracketed spells opening closing text items) :
    ∃ body, text = opening :: (body ++ [closing]) ∧
      (Blank body ∧ items = [] ∨ Separated spells body items) := by
  cases bracketed with
  | empty gap => exact ⟨_, rfl, Or.inl ⟨gap, rfl⟩⟩
  | filled separated => exact ⟨_, rfl, Or.inr separated⟩

theorem Bracketed.cancel {opening closing : Char}
    (closes : closing = ']' ∨ closing = '\x7d') {lefts rights : List α}
    {text otherText rest otherRest : List Char}
    (bracketed : Bracketed spells opening closing text lefts)
    (otherBracketed : Bracketed spells opening closing otherText rights)
    (opens : ∀ text item, spells text item → item ∈ lefts ++ rights →
      Opens text)
    (each : ∀ left ∈ lefts, ∀ right ∈ rights,
      Cancels spells Delimited left right)
    (same : text ++ rest = otherText ++ otherRest) :
    lefts = rights ∧ rest = otherRest := by
  have atClosing (rest : List Char) : Ends isBlank (closing :: rest) := by
    rintro char ⟨⟩
    rcases closes with rfl | rfl <;> rfl
  obtain ⟨body, rfl, inside⟩ := bracketed.exists_body
  obtain ⟨otherBody, rfl, otherInside⟩ := otherBracketed.exists_body
  simp only [List.cons_append, List.append_assoc, List.nil_append,
    List.cons.injEq, true_and] at same
  rcases inside with ⟨gap, rfl⟩ | separated
  · rcases otherInside with ⟨otherGap, rfl⟩ | otherSeparated
    · obtain ⟨_, same⟩ := run_cancel gap otherGap (atClosing _)
        (atClosing _) same
      exact ⟨rfl, (List.cons.inj same).2⟩
    · have filled := otherSeparated.opens fun text item written member =>
        opens text item written (List.mem_append_right _ member)
      exact ((filled.append _).ne_closing closes gap same).elim
  · rcases otherInside with ⟨otherGap, rfl⟩ | otherSeparated
    · have filled := separated.opens fun text item written member =>
        opens text item written (List.mem_append_left _ member)
      exact ((filled.append _).ne_closing closes otherGap same.symm).elim
    · exact separated.cancel closes otherSeparated each same

end Pieces

section Documents

variable {follows : List Char → Prop}

private theorem cancels_of_kind
    (literal : ∀ value, Literal (quoted value).toList)
    {left right : Json} (leftForm : WellFormed left)
    (rightForm : WellFormed right)
    (sameKind : left.kind = right.kind →
      Cancels (Spells quoted) follows left right) :
    Cancels (Spells quoted) follows left right := by
  intro text otherText rest otherRest spells otherSpells ends otherEnds same
  exact sameKind ((spells.tells literal leftForm).unique
      (otherSpells.tells literal rightForm) same)
    text otherText rest otherRest spells otherSpells ends otherEnds same

private theorem cancels_null : Cancels (Spells quoted) follows .null .null := by
  rintro _ _ rest otherRest ⟨⟩ ⟨⟩ _ _ same
  exact ⟨rfl, List.append_cancel_left same⟩

private theorem cancels_bool (value other : Bool) :
    Cancels (Spells quoted) follows (.bool value) (.bool other) := by
  rintro _ _ rest otherRest spells otherSpells _ _ same
  cases spells <;> cases otherSpells
  · exact ⟨rfl, List.append_cancel_left same⟩
  · exact absurd (List.cons.inj same).1 (by decide)
  · exact absurd (List.cons.inj same).1 (by decide)
  · exact ⟨rfl, List.append_cancel_left same⟩

private theorem cancels_number {digits other : String}
    (numeric : ∀ char ∈ digits.toList, Decimal.isNumeric char = true)
    (otherNumeric : ∀ char ∈ other.toList, Decimal.isNumeric char = true) :
    Cancels (Spells quoted) (Ends Decimal.isNumeric) (.number digits)
      (.number other) := by
  rintro _ _ rest otherRest ⟨⟩ ⟨⟩ ends otherEnds same
  obtain ⟨sameText, sameRest⟩ :=
    run_cancel numeric otherNumeric ends otherEnds same
  exact ⟨by rw [String.toList_inj.mp sameText], sameRest⟩

private theorem cancels_text (literal : ∀ value, Literal (quoted value).toList)
    (distinct : Function.Injective quoted) (value other : String) :
    Cancels (Spells quoted) follows (.text value) (.text other) := by
  rintro _ _ rest otherRest ⟨⟩ ⟨⟩ _ _ same
  obtain ⟨sameText, sameRest⟩ := (literal _).cancel (literal _) same
  exact ⟨by rw [distinct (String.toList_inj.mp sameText)], sameRest⟩

private theorem cancels_array (literal : ∀ value, Literal (quoted value).toList)
    {lefts rights : List Json} (leftForms : ∀ left ∈ lefts, WellFormed left)
    (rightForms : ∀ right ∈ rights, WellFormed right)
    (each : ∀ left ∈ lefts, ∀ right ∈ rights,
      Cancels (Padded (Spells quoted)) Delimited left right) :
    Cancels (Spells quoted) follows (.array lefts) (.array rights) := by
  intro text otherText rest otherRest spells otherSpells _ _ same
  cases spells with | array bracketed =>
  cases otherSpells with | array otherBracketed =>
  have opens (text : List Char) (element : Json)
      (padded : Padded (Spells quoted) text element)
      (member : element ∈ lefts ++ rights) : Opens text := by
    have wellFormed : WellFormed element := by
      rcases List.mem_append.mp member with inLeft | inRight
      · exact leftForms element inLeft
      · exact rightForms element inRight
    obtain ⟨before, spells, _⟩ := padded
    exact ⟨_, _, _, rfl, before, (spells.tells literal wellFormed).append _⟩
  obtain ⟨sameElements, sameRest⟩ :=
    bracketed.cancel (Or.inl rfl) otherBracketed opens each same
  exact ⟨by rw [sameElements], sameRest⟩

private theorem cancels_object
    (literal : ∀ value, Literal (quoted value).toList)
    {lefts rights : List (String × Json)}
    (each : ∀ left ∈ lefts, ∀ right ∈ rights,
      Cancels (Named (Spells quoted) quoted) Delimited left right) :
    Cancels (Spells quoted) follows (.object lefts) (.object rights) := by
  intro text otherText rest otherRest spells otherSpells _ _ same
  cases spells with | object bracketed =>
  cases otherSpells with | object otherBracketed =>
  have opens (text : List Char) (member : String × Json)
      (named : Named (Spells quoted) quoted text member)
      (_ : member ∈ lefts ++ rights) : Opens text := by
    obtain ⟨before, _, _⟩ := named
    exact ⟨_, _, _, rfl, before, (literal _).tells.append _⟩
  obtain ⟨sameMembers, sameRest⟩ :=
    bracketed.cancel (Or.inr rfl) otherBracketed opens each same
  exact ⟨by rw [sameMembers], sameRest⟩

end Documents

theorem padded_cancels (literal : ∀ value, Literal (quoted value).toList)
    {left right : Json} (leftForm : WellFormed left)
    (rightForm : WellFormed right)
    (cancels : Cancels (Spells quoted) (Ends Decimal.isNumeric) left right) :
    Cancels (Padded (Spells quoted)) Delimited left right :=
  Padded.cancels (fun _ spells => spells.tells literal leftForm)
    (fun _ spells => spells.tells literal rightForm) cancels

private theorem spells_cancels
    (literal : ∀ value, Literal (quoted value).toList)
    (distinct : Function.Injective quoted) {left : Json}
    (leftForm : WellFormed left) :
    ∀ {right : Json}, WellFormed right →
      Cancels (Spells quoted) (Ends Decimal.isNumeric) left right := by
  induction leftForm with
  | null =>
      intro right rightForm
      refine cancels_of_kind literal .null rightForm fun sameKind => ?_
      cases rightForm with
      | null => exact cancels_null
      | _ => cases sameKind
  | @bool value =>
      intro right rightForm
      refine cancels_of_kind literal .bool rightForm fun sameKind => ?_
      cases rightForm with
      | @bool other => exact cancels_bool value other
      | _ => cases sameKind
  | number nonempty numeric =>
      intro right rightForm
      refine cancels_of_kind literal (.number nonempty numeric) rightForm
        fun sameKind => ?_
      cases rightForm with
      | number _ otherNumeric => exact cancels_number numeric otherNumeric
      | _ => cases sameKind
  | @text value =>
      intro right rightForm
      refine cancels_of_kind literal .text rightForm fun sameKind => ?_
      cases rightForm with
      | @text other => exact cancels_text literal distinct value other
      | _ => cases sameKind
  | @array elements leftForms ih =>
      intro right rightForm
      refine cancels_of_kind literal (.array leftForms) rightForm
        fun sameKind => ?_
      cases rightForm with
      | @array others rightForms =>
          refine cancels_array literal leftForms rightForms ?_
          intro left inLeft right inRight
          exact padded_cancels literal (leftForms left inLeft)
            (rightForms right inRight) (ih left inLeft (rightForms right inRight))
      | _ => cases sameKind
  | @object members leftForms ih =>
      intro right rightForm
      refine cancels_of_kind literal (.object leftForms) rightForm
        fun sameKind => ?_
      cases rightForm with
      | @object others rightForms =>
          refine cancels_object literal ?_
          intro left inLeft right inRight
          exact Named.cancels literal distinct
            (padded_cancels literal (leftForms left inLeft)
              (rightForms right inRight)
              (ih left inLeft (rightForms right inRight)))
      | _ => cases sameKind

/-- A text stands for one document. -/
theorem eq_of_padded_spells (literal : ∀ value, Literal (quoted value).toList)
    (distinct : Function.Injective quoted) {left right : Json}
    (leftForm : WellFormed left) (rightForm : WellFormed right)
    {text : List Char} (padded : Padded (Spells quoted) text left)
    (otherPadded : Padded (Spells quoted) text right) : left = right := by
  have nothing : Delimited [] := by
    rintro char ⟨⟩
  exact (padded_cancels literal leftForm rightForm
    (spells_cancels literal distinct leftForm rightForm)
    text text [] [] padded otherPadded nothing nothing rfl).1

end Json
end DexCensus
