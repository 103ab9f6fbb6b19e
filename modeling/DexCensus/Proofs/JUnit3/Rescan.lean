/-
The search for JUnit3 tests with a set of matched definitions.

A search need not keep what is still waiting.  It may go through all
definitions in every scan and pass over those it has matched before.  Definitions
are told apart by their place in the list, since two of them may be equal.

Scanning what is waiting is the same: what is waiting is what has not been
matched, in its order.
-/

import DexCensus.Proofs.Computation
import DexCensus.Proofs.JUnit3.Search
import Mathlib.Data.List.FinRange

namespace DexCensus
namespace JUnit3

open Dex

variable {all : List Definition}

/-- A scan of all definitions in progress, and the places matched so far. -/
structure Rescan (all : List Definition) where
  search : Search
  matched : List (Fin all.length)
  found : Nat

namespace Rescan

def start (search : Search) (matched : List (Fin all.length)) : Rescan all :=
  { search := { search with scans := search.scans + 1 }
    matched := matched
    found := 0 }

def gain (rescan : Rescan all) (place : Fin all.length)
    (descriptor : String) (tests : List TestMethod) : Rescan all :=
  let (known, bases) := rescan.search.bases.containsThenInsert descriptor
  { search :=
      { bases := bases
        tests := rescan.search.tests.insertAll tests
        scans := rescan.search.scans }
    matched := place :: rescan.matched
    found := if known then rescan.found else rescan.found + 1 }

def examine (rescan : Rescan all) (place : Fin all.length) :
    Except DexError (Rescan all) :=
  if place ∈ rescan.matched then .ok rescan
  else
    let definition := all.get place
    match definition.segment.superclassDescriptor? definition.classDef with
    | .error fault => .error (.bare fault)
    | .ok none => .ok rescan
    | .ok (some superclass) =>
        if superclass ∈ rescan.search.bases then
          match definition.segment.classDescriptor definition.classDef with
          | .error fault => .error (.bare fault)
          | .ok descriptor =>
              match testsOf definition with
              | .error fault =>
                  .error (definition.faultInClass descriptor fault)
              | .ok tests => .ok (rescan.gain place descriptor tests)
        else .ok rescan

def run (search : Search) (matched : List (Fin all.length)) :
    Except DexError (Rescan all) :=
  (List.finRange all.length).foldlM examine (start search matched)

end Rescan

/-- Scanning everything until a scan finds no new base, and how it ends. -/
inductive Rescans (all : List Definition) :
    Search → List (Fin all.length) → Except DexError Search → Prop
  | fails {search : Search} {matched : List (Fin all.length)}
      {error : DexError} :
      Rescan.run search matched = .error error →
        Rescans all search matched (.error error)
  | settles {search : Search} {matched : List (Fin all.length)}
      {last : Rescan all} :
      Rescan.run search matched = .ok last → last.found = 0 →
        Rescans all search matched (.ok last.search)
  | again {search : Search} {matched : List (Fin all.length)}
      {last : Rescan all} {outcome : Except DexError Search} :
      Rescan.run search matched = .ok last → last.found ≠ 0 →
      Rescans all last.search last.matched outcome →
        Rescans all search matched outcome

theorem Rescans.unique {search : Search} {matched : List (Fin all.length)}
    {outcome other : Except DexError Search}
    (rescans : Rescans all search matched outcome)
    (otherRescans : Rescans all search matched other) : outcome = other := by
  induction rescans generalizing other with
  | fails failed =>
      cases otherRescans with
      | fails otherFailed =>
          cases failed.symm.trans otherFailed
          rfl
      | settles ran | again ran => cases failed.symm.trans ran
  | settles ran settled =>
      cases otherRescans with
      | fails failed => cases ran.symm.trans failed
      | settles otherRan =>
          cases ran.symm.trans otherRan
          rfl
      | again otherRan unsettled =>
          cases ran.symm.trans otherRan
          exact (unsettled settled).elim
  | again ran unsettled _ ih =>
      cases otherRescans with
      | fails failed => cases ran.symm.trans failed
      | settles otherRan settled =>
          cases ran.symm.trans otherRan
          exact (unsettled settled).elim
      | again otherRan _ others =>
          cases ran.symm.trans otherRan
          exact ih others

/-! ### What is waiting is what has not been matched -/

def unmatched (matched places : List (Fin all.length)) :
    List (Fin all.length) :=
  places.filter fun place => place ∉ matched

section Places

variable {matched places : List (Fin all.length)} {place : Fin all.length}

theorem unmatched_cons_of_mem (known : place ∈ matched) :
    unmatched matched (place :: places) = unmatched matched places :=
  List.filter_cons_of_neg (by simpa using known)

theorem unmatched_cons_of_not_mem (fresh : place ∉ matched) :
    unmatched matched (place :: places) = place :: unmatched matched places :=
  List.filter_cons_of_pos (by simpa using fresh)

private theorem unmatched_of_not_mem (absent : place ∉ places) :
    unmatched (place :: matched) places = unmatched matched places := by
  apply List.filter_congr
  intro other member
  have apart : other ≠ place := by
    rintro rfl
    exact absent member
  simp [apart]

end Places

structure Mirrors (rescan : Rescan all) (scan : Scan) : Prop where
  search : rescan.search = scan.search
  found : rescan.found = scan.found

/-- A scan that passes over what was matched, and one of what was not, end
alike: what the second one has added to what is waiting is what the first one
has not matched. -/
structure EndAlike (places : List (Fin all.length)) (rescan : Rescan all)
    (scan : Scan) (last : Rescan all) (lastScan : Scan) : Prop where
  mirrors : Mirrors last lastScan
  others : ∀ place ∉ places, place ∈ last.matched ↔ place ∈ rescan.matched
  waiting : lastScan.waiting =
    ((unmatched last.matched places).map all.get).reverse ++ scan.waiting

variable {rescan next last : Rescan all} {scan nextScan lastScan : Scan}
  {place : Fin all.length} {places : List (Fin all.length)}

private theorem EndAlike.cons_of_matched (notLater : place ∉ places)
    (known : place ∈ rescan.matched)
    (alike : EndAlike places rescan scan last lastScan) :
    EndAlike (place :: places) rescan scan last lastScan := by
  refine ⟨alike.mirrors, ?_, ?_⟩
  · intro other absent
    exact alike.others other (List.not_mem_of_not_mem_cons absent)
  · rw [unmatched_cons_of_mem ((alike.others place notLater).mpr known),
      alike.waiting]

private theorem EndAlike.cons_of_left (notLater : place ∉ places)
    (fresh : place ∉ rescan.matched) (same : next.matched = rescan.matched)
    (grown : nextScan.waiting = all.get place :: scan.waiting)
    (alike : EndAlike places next nextScan last lastScan) :
    EndAlike (place :: places) rescan scan last lastScan := by
  rw [← same] at fresh
  refine ⟨alike.mirrors, ?_, ?_⟩
  · intro other absent
    rw [alike.others other (List.not_mem_of_not_mem_cons absent), same]
  · rw [unmatched_cons_of_not_mem ((alike.others place notLater).not.mpr fresh),
      alike.waiting, grown]
    simp

private theorem EndAlike.cons_of_admitted (notLater : place ∉ places)
    (added : next.matched = place :: rescan.matched)
    (same : nextScan.waiting = scan.waiting)
    (alike : EndAlike places next nextScan last lastScan) :
    EndAlike (place :: places) rescan scan last lastScan := by
  have nowMatched : place ∈ last.matched := by
    rw [alike.others place notLater, added]
    exact List.mem_cons_self
  refine ⟨alike.mirrors, ?_, ?_⟩
  · intro other absent
    rw [alike.others other (List.not_mem_of_not_mem_cons absent), added,
      List.mem_cons]
    exact or_iff_right (List.ne_of_not_mem_cons absent)
  · rw [unmatched_cons_of_mem nowMatched, alike.waiting, same]

private theorem Mirrors.examine (mirrors : Mirrors rescan scan)
    (fresh : place ∉ rescan.matched) :
    (∃ error, rescan.examine place = .error error ∧
      scan.examine (all.get place) = .error error) ∨
    (∃ next nextScan, rescan.examine place = .ok next ∧
      scan.examine (all.get place) = .ok nextScan ∧ Mirrors next nextScan ∧
      (next.matched = rescan.matched ∧
          nextScan.waiting = all.get place :: scan.waiting ∨
        next.matched = place :: rescan.matched ∧
          nextScan.waiting = scan.waiting)) := by
  unfold Rescan.examine Scan.examine
  rw [if_neg fresh]
  dsimp only
  cases (all.get place).segment.superclassDescriptor?
      (all.get place).classDef with
  | error fault => exact Or.inl ⟨_, rfl, rfl⟩
  | ok superclass? =>
      cases superclass? with
      | none =>
          exact Or.inr ⟨_, _, rfl, rfl, ⟨mirrors.search, mirrors.found⟩,
            Or.inl ⟨rfl, rfl⟩⟩
      | some superclass =>
          rw [← mirrors.search]
          by_cases isBase : superclass ∈ rescan.search.bases
          · simp only [if_pos isBase]
            cases (all.get place).segment.classDescriptor
                (all.get place).classDef with
            | error fault => exact Or.inl ⟨_, rfl, rfl⟩
            | ok descriptor =>
                cases testsOf (all.get place) with
                | error fault => exact Or.inl ⟨_, rfl, rfl⟩
                | ok tests =>
                    refine Or.inr ⟨_, _, rfl, rfl, ?_, Or.inr ⟨rfl, rfl⟩⟩
                    unfold Rescan.gain Scan.admitClass
                    rw [mirrors.search, mirrors.found]
                    exact ⟨rfl, rfl⟩
          · simp only [if_neg isBase]
            exact Or.inr ⟨_, _, rfl, rfl, ⟨mirrors.search, mirrors.found⟩,
              Or.inl ⟨rfl, rfl⟩⟩

private theorem Mirrors.foldlM (once : places.Nodup)
    (mirrors : Mirrors rescan scan) :
    (∃ error, places.foldlM Rescan.examine rescan = .error error ∧
      ((unmatched rescan.matched places).map all.get).foldlM Scan.examine
        scan = .error error) ∨
    (∃ last lastScan, places.foldlM Rescan.examine rescan = .ok last ∧
      ((unmatched rescan.matched places).map all.get).foldlM Scan.examine
        scan = .ok lastScan ∧
      EndAlike places rescan scan last lastScan) := by
  induction places generalizing rescan scan with
  | nil =>
      exact Or.inr ⟨rescan, scan, rfl, rfl, mirrors, fun _ _ => Iff.rfl, rfl⟩
  | cons place places ih =>
      obtain ⟨notLater, once⟩ := List.nodup_cons.mp once
      rw [List.foldlM_cons]
      by_cases known : place ∈ rescan.matched
      · have passedOver : rescan.examine place = .ok rescan := if_pos known
        rw [bind_of_eq_ok passedOver, unmatched_cons_of_mem known]
        rcases ih once mirrors with failed | ⟨last, lastScan, ran, scanned, alike⟩
        · exact Or.inl failed
        · exact Or.inr ⟨last, lastScan, ran, scanned,
            alike.cons_of_matched notLater known⟩
      · rw [unmatched_cons_of_not_mem known, List.map_cons, List.foldlM_cons]
        rcases mirrors.examine known with ⟨error, failed, stopped⟩ |
          ⟨next, nextScan, ran, scanned, goesOn, ⟨same, grown⟩ |
            ⟨added, same⟩⟩
        · exact Or.inl ⟨error, bind_of_eq_error failed,
            bind_of_eq_error stopped⟩
        · rw [bind_of_eq_ok ran, bind_of_eq_ok scanned, ← same]
          rcases ih once goesOn with failed |
            ⟨last, lastScan, ran, scanned, alike⟩
          · exact Or.inl failed
          · exact Or.inr ⟨last, lastScan, ran, scanned,
              alike.cons_of_left notLater known same grown⟩
        · rw [bind_of_eq_ok ran, bind_of_eq_ok scanned,
            ← unmatched_of_not_mem notLater, ← added]
          rcases ih once goesOn with failed |
            ⟨last, lastScan, ran, scanned, alike⟩
          · exact Or.inl failed
          · exact Or.inr ⟨last, lastScan, ran, scanned,
              alike.cons_of_admitted notLater added same⟩

/-- Going through everything with a set of what is matched ends as the search
that keeps what is waiting does. -/
theorem rescans_complete (search : Search) (waiting : List Definition) :
    ∀ matched, waiting =
        (unmatched matched (List.finRange all.length)).map all.get →
      Rescans all search matched (search.complete waiting) := by
  have mirrored (search : Search) (matched : List (Fin all.length)) :=
    Mirrors.foldlM (List.nodup_finRange all.length)
      (Mirrors.mk rfl rfl :
        Mirrors (Rescan.start search matched) (Scan.start search))
  induction search, waiting using Search.complete.induct with
  | case1 search waiting error failed =>
      rintro matched rfl
      rw [Search.complete_of_error failed]
      rcases mirrored search matched with ⟨_, ran, scanned⟩ |
        ⟨_, _, _, scanned, _⟩
      · cases failed.symm.trans scanned
        exact .fails ran
      · cases failed.symm.trans scanned
  | case2 search waiting result scanned settled =>
      rintro matched rfl
      rw [Search.complete_of_settled scanned settled]
      rcases mirrored search matched with ⟨_, _, failed⟩ |
        ⟨last, _, ran, found, alike⟩
      · cases scanned.symm.trans failed
      · cases scanned.symm.trans found
        rw [← alike.mirrors.search]
        exact .settles ran (alike.mirrors.found.trans settled)
  | case3 search waiting result scanned unsettled ih =>
      rintro matched rfl
      rw [Search.complete_of_progress scanned unsettled]
      rcases mirrored search matched with ⟨_, _, failed⟩ |
        ⟨last, _, ran, found, alike⟩
      · cases scanned.symm.trans failed
      · cases scanned.symm.trans found
        refine .again ran (alike.mirrors.found.trans_ne unsettled) ?_
        rw [alike.mirrors.search]
        apply ih
        rw [alike.waiting]
        simp

/-- The search for JUnit3 tests is the one that goes through all definitions in
every scan and passes over the matched ones. -/
theorem rescans_initial_iff (all : List Definition)
    {outcome : Except DexError Search} :
    Rescans all Search.initial [] outcome ↔
      Search.initial.complete all = outcome := by
  have ends : Rescans all Search.initial [] (Search.initial.complete all) := by
    apply rescans_complete
    simp [unmatched]
  constructor
  · exact ends.unique
  · rintro rfl
    exact ends

end JUnit3
end DexCensus
