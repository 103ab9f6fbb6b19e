/-
What may be relied on in a library for JSON.

It writes documents in the grammar of JSON, text as literals that differ for
different texts, and finite numbers as texts that differ for different bits.
Layout, the choice of escapes and the form of numbers are left open.  The
standard serializer of this program is one that keeps to this.
-/

import DexCensus.Proofs.Json
import DexCensus.Report

namespace DexCensus

/-- The texts of floating-point numbers: none for infinities and what is not a
number, and for the others one that belongs to them alone. -/
structure NumberTexts {α : Type} (isFinite : α → Prop)
    (text? : α → Option String) : Prop where
  finite : ∀ bits, text? bits = none ↔ ¬ isFinite bits
  nonempty : ∀ {bits digits}, text? bits = some digits → digits ≠ ""
  numeric : ∀ {bits digits}, text? bits = some digits →
    ∀ char ∈ digits.toList, Decimal.isNumeric char = true
  distinct : ∀ {left right digits},
    text? left = some digits → text? right = some digits → left = right

structure Serializer.Faithful (serializer : Serializer) : Prop where
  literal : ∀ value, Json.Literal (serializer.quoted value).toList
  reversible : Function.Injective serializer.quoted
  single : NumberTexts (fun bits : UInt32 => Decimal.single.IsFinite bits.toNat)
    serializer.single
  double : NumberTexts (fun bits : UInt64 => Decimal.double.IsFinite bits.toNat)
    serializer.double
  written : ∀ document, Json.Padded (Json.Spells serializer.quoted)
    (serializer.pretty document).toList document

namespace Json

def hexadecimalDigit (char : Char) : Nat :=
  if char.isDigit then char.toNat - '0'.toNat
  else char.toNat - 'a'.toNat + 10

def unescape : List Char → Option (Char × List Char)
  | '\\' :: 'n' :: rest => some ('\n', rest)
  | '\\' :: 'r' :: rest => some ('\r', rest)
  | '\\' :: 't' :: rest => some ('\t', rest)
  | '\\' :: 'b' :: rest => some (Char.ofNat 8, rest)
  | '\\' :: 'f' :: rest => some (Char.ofNat 12, rest)
  | '\\' :: 'u' :: '0' :: '0' :: high :: low :: rest =>
      some (Char.ofNat (hexadecimalDigit high * 16 + hexadecimalDigit low),
        rest)
  | '\\' :: char :: rest => some (char, rest)
  | char :: rest => some (char, rest)
  | [] => none

theorem paddedHexadecimal_control (code : Nat) (control : code < 32) :
    ∃ high low, (Digits.paddedHexadecimal 4 code).toList =
        ['0', '0', high, low] ∧
      hexadecimalDigit high * 16 + hexadecimalDigit low = code ∧
      (high ≠ '"' ∧ high ≠ '\\') ∧ low ≠ '"' ∧ low ≠ '\\' := by
  refine ⟨Nat.digitChar (code / 16), Nat.digitChar (code % 16), ?_⟩
  revert code
  decide

private theorem unescape_escape (char : Char) (rest : List Char) :
    unescape (escape char ++ rest) = some (char, rest) := by
  unfold escape
  split_ifs with quote backslash newLine carriage tab backspace feed control
  case pos =>
    rw [quote]
    rfl
  case pos =>
    rw [backslash]
    rfl
  case pos =>
    rw [newLine]
    rfl
  case pos =>
    rw [carriage]
    rfl
  case pos =>
    rw [tab]
    rfl
  case pos =>
    rw [← Char.ofNat_toNat char, backspace]
    rfl
  case pos =>
    rw [← Char.ofNat_toNat char, feed]
    rfl
  case pos =>
    obtain ⟨high, low, digits, value, _⟩ :=
      paddedHexadecimal_control char.toNat control
    rw [digits]
    simp only [List.cons_append, List.nil_append]
    rw [unescape, value, Char.ofNat_toNat]
  case neg => simp [unescape, backslash]

private theorem flatMap_escape_injective {left right : List Char}
    (same : left.flatMap escape = right.flatMap escape) : left = right := by
  have front (char : Char) (rest : List Char) :
      unescape ((char :: rest).flatMap escape) =
        some (char, rest.flatMap escape) := by
    rw [List.flatMap_cons, unescape_escape]
  induction left generalizing right with
  | nil =>
      cases right with
      | nil => rfl
      | cons char others =>
          have read := front char others
          rw [← same] at read
          cases read
  | cons char others ih =>
      have read := front char others
      cases right with
      | nil =>
          rw [same] at read
          cases read
      | cons otherChar otherOthers =>
          rw [same, front] at read
          obtain ⟨sameChar, sameOthers⟩ :=
            Prod.mk.inj (Option.some.inj read)
          rw [sameChar, ih sameOthers.symm]

private theorem literalBody_escape (char : Char) {rest : List Char}
    (body : LiteralBody rest) : LiteralBody (escape char ++ rest) := by
  unfold escape
  split_ifs with quote backslash _ _ _ _ _ control
  case neg => exact .plain quote backslash body
  iterate 7
    case pos => exact .escaped body
  obtain ⟨high, low, digits, _, ⟨highQuote, highEscape⟩, lowQuote,
    lowEscape⟩ := paddedHexadecimal_control char.toNat control
  rw [digits]
  exact .escaped (.plain (by decide) (by decide)
    (.plain (by decide) (by decide)
      (.plain highQuote highEscape (.plain lowQuote lowEscape body))))

@[simp] theorem toList_quoted (value : String) :
    (quoted value).toList = '"' :: (value.toList.flatMap escape ++ ['"']) := by
  simp [quoted, String.toList_append]

private theorem literal_quoted (value : String) :
    Literal (quoted value).toList := by
  rw [toList_quoted]
  refine .quoted ?_
  induction value.toList with
  | nil => exact .nil
  | cons char rest ih => exact literalBody_escape char ih

private theorem quoted_injective : Function.Injective quoted := by
  intro left right same
  have sameChars := congrArg String.toList same
  rw [toList_quoted, toList_quoted] at sameChars
  exact String.toList_inj.mp (flatMap_escape_injective
    (List.append_cancel_right (List.cons.inj sameChars).2))

/-! ### The indented rendering -/

theorem blank_newLine (depth : Nat) : Blank (newLine depth).toList := by
  intro char member
  rw [newLine, String.toList_ofList] at member
  rcases List.mem_cons.mp member with rfl | space
  · rfl
  · rw [List.eq_of_mem_replicate space]
    rfl

@[simp] theorem blank_nil : Blank [] := by
  intro char member
  cases member

/-- Pieces that spell an item, whatever pieces stand behind them. -/
def Renders {α : Type} (spells : List Char → α → Prop)
    (pieces : List String → List String) (item : α) : Prop :=
  ∃ text, spells text item ∧
    ∀ rest, (pieces rest).flatMap String.toList =
      text ++ rest.flatMap String.toList

/-- Items are listed one after another, each one by the pieces in front of it
and its own ones.  If an item is spelled by these with some gap behind them, and
also with none, then the list is. -/
private theorem renders_separated {α : Type}
    {inner spells : List Char → α → Prop} (front : α → List String)
    (own : List String → α → List String)
    {listed : List String → List α → List String} {gap : List Char}
    (last : ∀ rest item, listed rest [item] = front item ++ own rest item)
    (next : ∀ rest item other others,
      listed rest (item :: other :: others) =
        front item ++ own ("," :: listed rest (other :: others)) item)
    (spelled : ∀ text item, inner text item → ∀ behind ∈ [[], gap],
      spells ((front item).flatMap String.toList ++ (text ++ behind)) item)
    {first : α} {others : List α}
    (each : ∀ item ∈ first :: others, Renders inner (own · item) item) :
    ∃ text, Separated spells (text ++ gap) (first :: others) ∧
      ∀ rest, (listed rest (first :: others)).flatMap String.toList =
        text ++ rest.flatMap String.toList := by
  obtain ⟨text, written, pieces⟩ := each first List.mem_cons_self
  induction others generalizing first text with
  | nil =>
      refine ⟨(front first).flatMap String.toList ++ text, ?_, ?_⟩
      · rw [List.append_assoc]
        exact .last (spelled text first written gap (by simp))
      · intro rest
        rw [last, List.flatMap_append, pieces, List.append_assoc]
  | cons second others ih =>
      have later := fun item member =>
        each item (List.mem_cons_of_mem first member)
      obtain ⟨behind, secondWritten, secondPieces⟩ :=
        later second List.mem_cons_self
      obtain ⟨tail, separated, tailPieces⟩ :=
        ih later behind secondWritten secondPieces
      refine ⟨(front first).flatMap String.toList ++ (text ++ ',' :: tail),
        ?_, ?_⟩
      · have here := spelled text first written [] (by simp)
        simpa using Separated.comma here separated
      · intro rest
        rw [next, List.flatMap_append, pieces, List.flatMap_cons, tailPieces]
        simp

private theorem renders_elements (depth : Nat) {first : Json}
    {others : List Json}
    (each : ∀ element ∈ first :: others,
      Renders (Spells quoted) (indentedPieces depth · element) element)
    {gap : List Char} (blank : Blank gap) :
    ∃ text, Separated (Padded (Spells quoted)) (text ++ gap)
        (first :: others) ∧
      ∀ rest, (indentedElements depth rest (first :: others)).flatMap
        String.toList = text ++ rest.flatMap String.toList := by
  refine renders_separated (fun _ => [newLine depth]) (indentedPieces depth)
    (fun _ _ => rfl) (fun _ _ _ _ => rfl) ?_ each
  intro text element written behind isGap
  have blankBehind : Blank behind := by
    rcases List.mem_pair.mp isGap with rfl | rfl
    · exact blank_nil
    · exact blank
  simpa using Padded.blanks (blank_newLine depth) written blankBehind

private theorem renders_members (depth : Nat) {first : String × Json}
    {others : List (String × Json)}
    (each : ∀ member ∈ first :: others,
      Renders (fun text => Spells quoted text ∘ Prod.snd)
        (indentedPieces depth · member.2) member)
    {gap : List Char} (blank : Blank gap) :
    ∃ text, Separated (Named (Spells quoted) quoted) (text ++ gap)
        (first :: others) ∧
      ∀ rest, (indentedMembers depth rest (first :: others)).flatMap
        String.toList = text ++ rest.flatMap String.toList := by
  refine renders_separated
    (fun member => [newLine depth, quoted member.1, ": "])
    (fun rest member => indentedPieces depth rest member.2)
    (fun _ _ => rfl) (fun _ _ _ _ => rfl) ?_ each
  intro text member written behind isGap
  have blankBehind : Blank behind := by
    rcases List.mem_pair.mp isGap with rfl | rfl
    · exact blank_nil
    · exact blank
  have space : Blank [' '] := by
    intro char isSpace
    rw [List.mem_singleton.mp isSpace]
    rfl
  have named : Named (Spells quoted) quoted _ (member.1, member.2) :=
    .colon (blank_newLine depth) blank_nil (.blanks space written blankBehind)
  simpa using named

private theorem renders_bracketed {α : Type} {spells : List Char → α → Prop}
    {items : List α} {document : Json} {opening closing : Char}
    {front gap back : String} {pieces : List String → List String}
    (opens : front.toList = [opening]) (closes : back.toList = [closing])
    (inside : ∃ text, Separated spells (text ++ gap.toList) items ∧
      ∀ rest, (pieces rest).flatMap String.toList =
        text ++ rest.flatMap String.toList)
    (enclosed : ∀ text, Bracketed spells opening closing text items →
      Spells quoted text document) :
    Renders (Spells quoted)
      (fun rest => front :: pieces (gap :: back :: rest)) document := by
  obtain ⟨text, separated, spelled⟩ := inside
  refine ⟨_, enclosed _ (.filled separated), ?_⟩
  intro rest
  rw [List.flatMap_cons, spelled, List.flatMap_cons, List.flatMap_cons, opens,
    closes]
  simp

private theorem renders_indentedPieces (document : Json) :
    ∀ depth, Renders (Spells quoted) (indentedPieces depth · document)
      document := by
  intro depth
  match document with
  | .null => exact ⟨_, .null, fun rest => by simp [indentedPieces]⟩
  | .bool true => exact ⟨_, .true, fun rest => by simp [indentedPieces]⟩
  | .bool false => exact ⟨_, .false, fun rest => by simp [indentedPieces]⟩
  | .number digits => exact ⟨_, .number, fun rest => by simp [indentedPieces]⟩
  | .text value => exact ⟨_, .text, fun rest => by simp [indentedPieces]⟩
  | .array [] =>
      exact ⟨_, .array (.empty blank_nil), fun rest => by
        simp [indentedPieces]⟩
  | .object [] =>
      exact ⟨_, .object (.empty blank_nil), fun rest => by
        simp [indentedPieces]⟩
  | .array (first :: others) =>
      have inside := renders_elements (depth + 1)
        (fun element (member : element ∈ first :: others) =>
          renders_indentedPieces element (depth + 1)) (blank_newLine depth)
      simp only [indentedPieces]
      exact renders_bracketed rfl rfl inside fun text => .array
  | .object (first :: others) =>
      have inside := renders_members (depth + 1)
        (fun member (listed : member ∈ first :: others) =>
          renders_indentedPieces member.2 (depth + 1)) (blank_newLine depth)
      simp only [indentedPieces]
      exact renders_bracketed rfl rfl inside fun text => .object
termination_by sizeOf document
decreasing_by
  · have smaller := List.sizeOf_lt_of_mem member
    simp only [Json.array.sizeOf_spec]
    omega
  · have smaller := List.sizeOf_lt_of_mem listed
    have inPair : sizeOf member.2 < sizeOf member := by
      cases member
      simp
    simp only [Json.object.sizeOf_spec]
    omega

private theorem spells_pretty (document : Json) :
    Padded (Spells quoted) document.pretty.toList document := by
  obtain ⟨text, spells, pieces⟩ := renders_indentedPieces document 0
  have whole := pieces []
  rw [List.flatMap_nil, List.append_nil] at whole
  rw [pretty, String.toList_join, whole]
  simpa using Padded.blanks blank_nil spells blank_nil

end Json

private theorem numberTexts_text? {α : Type} {format : Decimal.BinaryFormat}
    (moderate : format.Moderate) (style : Decimal.Style) {number : α → Nat}
    (small : ∀ bits, number bits <
      2 ^ (format.fractionBits + format.exponentBits + 1))
    (distinct : Function.Injective number) :
    NumberTexts (fun bits => format.IsFinite (number bits))
      (fun bits => Decimal.text? format style (number bits)) := by
  constructor
  case finite => exact fun bits => Decimal.text?_eq_none_iff
  case nonempty => exact Decimal.nonempty_of_text?
  case numeric => exact Decimal.isNumeric_of_text?
  case distinct =>
    intro left right digits written otherWritten
    exact distinct (Decimal.text?_unique moderate (small left) (small right)
      written otherWritten)

theorem Report.standard_faithful : Report.standard.Faithful := by
  constructor
  case literal => exact Json.literal_quoted
  case reversible => exact Json.quoted_injective
  case single =>
    exact numberTexts_text? Decimal.BinaryFormat.moderate_single singleStyle
      UInt32.toNat_lt fun _ _ => UInt32.toNat_inj.mp
  case double =>
    exact numberTexts_text? Decimal.BinaryFormat.moderate_double doubleStyle
      UInt64.toNat_lt fun _ _ => UInt64.toNat_inj.mp
  case written => exact Json.spells_pretty

end DexCensus
