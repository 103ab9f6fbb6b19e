/-
What the steps of the search for JUnit3 tests do.
-/

import DexCensus.JUnit3

namespace DexCensus
namespace JUnit3

@[simp] theorem mem_admitClass_bases (scan : Scan) (descriptor : String)
    (tests : List TestMethod) (other : String) :
    other ∈ (scan.admitClass descriptor tests).search.bases ↔
      other ∈ scan.search.bases ∨ other = descriptor := by
  simp only [Scan.admitClass, Std.HashSet.containsThenInsert_snd,
    Std.HashSet.mem_insert, beq_iff_eq]
  constructor
  · intro member
    rcases member with same | old
    · exact Or.inr same.symm
    · exact Or.inl old
  · intro member
    rcases member with old | same
    · exact Or.inr old
    · exact Or.inl same.symm

theorem admitClass_found_eq_zero {scan : Scan} {descriptor : String}
    {tests : List TestMethod}
    (noneFound : (scan.admitClass descriptor tests).found = 0) :
    scan.found = 0 ∧ descriptor ∈ scan.search.bases := by
  simp only [Scan.admitClass, Std.HashSet.containsThenInsert_fst]
    at noneFound
  split at noneFound
  · rename_i known
    exact ⟨noneFound, known⟩
  · omega

theorem Search.complete_of_error {search : Search}
    {waiting : List Definition} {error : DexError}
    (scanned : search.scan waiting = .error error) :
    search.complete waiting = .error error := by
  rw [Search.complete, scanned]

theorem Search.complete_of_settled {search : Search}
    {waiting : List Definition} {result : Scan}
    (scanned : search.scan waiting = .ok result)
    (settled : result.found = 0) :
    search.complete waiting = .ok result.search := by
  rw [Search.complete, scanned]
  exact dif_pos settled

theorem Search.complete_of_progress {search : Search}
    {waiting : List Definition} {result : Scan}
    (scanned : search.scan waiting = .ok result)
    (progress : result.found ≠ 0) :
    search.complete waiting =
      result.search.complete result.waiting.reverse := by
  rw [Search.complete, scanned]
  exact dif_neg progress

end JUnit3
end DexCensus
