/-
How often the search for JUnit3 tests scans.

A class whose superclass is a base when a scan starts is matched by that scan,
wherever it stands.  So the scans follow the superclass links: after as many
scans as a class is links away from the platform, its descriptor is a base.
The scan after the one that reaches the farthest class finds nothing new, and
it is the last.  Definitions are told apart by their place in the list, since
two of them may be equal.
-/

import DexCensus.Proofs.JUnit3.Closure
import DexCensus.Proofs.JUnit3.Rescan
import DexCensus.Proofs.JUnit4.Cycle
import Mathlib.Data.Fintype.Card
import Mathlib.Order.Lattice.Nat

namespace DexCensus
namespace JUnit3

open Dex

variable {all : List Definition} {definition : Definition}
  {scan last : Scan} {search result : Search}
  {places matched left : List (Fin all.length)}
  {passes : List (List (Fin all.length))}

/-- A class that reaches a class of the platform over some number of
superclass links. -/
inductive LinkedBy (all : List Definition) : Definition → Nat → Prop
  | seed {definition : Definition} {superclass : String} :
      definition ∈ all → HasSuperclass definition superclass →
        superclass ∈ platformBases → LinkedBy all definition 1
  | step {definition base : Definition} {superclass : String}
      {links : Nat} :
      definition ∈ all → HasSuperclass definition superclass →
        LinkedBy all base links → HasDescriptor base superclass →
          LinkedBy all definition (links + 1)

/-- The length of the shortest chains. -/
def Distance (all : List Definition) (definition : Definition)
    (links : Nat) : Prop :=
  IsLeast {links | LinkedBy all definition links} links

/-- The largest distance of a test class, or zero if there is none. -/
def Farthest (all : List Definition) (links : Nat) : Prop :=
  IsGreatest
    (insert 0 {links | ∃ definition, Distance all definition links}) links

private theorem LinkedBy.mem {links : Nat}
    (linked : LinkedBy all definition links) : definition ∈ all := by
  cases linked with
  | seed inAll _ _ => exact inAll
  | step inAll _ _ _ => exact inAll

private theorem testClass_iff_linkedBy :
    TestClass all definition ↔ ∃ links, LinkedBy all definition links := by
  constructor
  · intro member
    induction member with
    | seed inAll known ofPlatform => exact ⟨1, .seed inAll known ofPlatform⟩
    | step inAll known _ named ih =>
        obtain ⟨links, linked⟩ := ih
        exact ⟨links + 1, .step inAll known linked named⟩
  · intro ⟨links, linked⟩
    induction linked with
    | seed inAll known ofPlatform => exact .seed inAll known ofPlatform
    | step inAll known _ named ih => exact .step inAll known ih named

private theorem TestClass.exists_distance (member : TestClass all definition) :
    ∃ links, Distance all definition links :=
  ⟨_, Nat.sInf_mem (testClass_iff_linkedBy.mp member),
    fun _ linked => Nat.sInf_le linked⟩

private theorem Distance.nearer {links : Nat} (apart : 0 < links)
    (distance : Distance all definition (links + 1)) :
    ∃ base, Distance all base links := by
  obtain ⟨linked, least⟩ := distance
  cases linked with
  | seed => omega
  | step inAll known below named =>
      refine ⟨_, below, ?_⟩
      intro other otherLinked
      have longer := least (LinkedBy.step inAll known otherLinked named)
      omega

private theorem Distance.exists_of_le {further links : Nat} (apart : 0 < links)
    (distance : Distance all definition (links + further)) :
    ∃ base, Distance all base links := by
  induction further generalizing definition with
  | zero => exact ⟨definition, distance⟩
  | succ further ih =>
      obtain ⟨base, nearer⟩ :=
        Distance.nearer (Nat.add_pos_left apart further) distance
      exact ih nearer

private theorem Distance.le_length {links : Nat}
    (distance : Distance all definition links) : links ≤ all.length := by
  have attained (index : Fin links) :
      ∃ place, Distance all (all.get place) (index + 1) := by
    have split : index.val + 1 + (links - (index.val + 1)) = links := by
      omega
    obtain ⟨base, nearer⟩ :=
      Distance.exists_of_le (Nat.succ_pos index) (split ▸ distance)
    obtain ⟨place, stands⟩ := List.get_of_mem nearer.1.mem
    exact ⟨place, stands ▸ nearer⟩
  choose place distances using attained
  have apart : Function.Injective place := by
    intro first second same
    have firstDistance := distances first
    rw [same] at firstDistance
    have equal := firstDistance.unique (distances second)
    exact Fin.ext (Nat.succ.inj equal)
  simpa using Fintype.card_le_of_injective place apart

private theorem exists_farthest (all : List Definition) :
    ∃ farthest, Farthest all farthest ∧ farthest ≤ all.length := by
  have bounded : ∀ links ∈
      insert 0 {links | ∃ definition, Distance all definition links},
      links ≤ all.length := by
    rintro links (rfl | ⟨definition, distance⟩)
    · exact Nat.zero_le _
    · exact distance.le_length
  have greatest := Nat.sSup_mem
    (Set.insert_nonempty 0
      {links | ∃ definition, Distance all definition links})
    ⟨all.length, bounded⟩
  exact ⟨_, ⟨greatest, fun links attained =>
    le_csSup ⟨all.length, bounded⟩ attained⟩, bounded _ greatest⟩

/-! ### Scans with places -/

/-- A scan over the definitions at some places.  Those at `left` it leaves
waiting, and those at `matched` it does not. -/
inductive Scans (all : List Definition) : Scan → List (Fin all.length) →
    List (Fin all.length) → List (Fin all.length) → Scan → Prop
  | done {scan : Scan} : Scans all scan [] [] [] scan
  | passes {scan last : Scan} {place : Fin all.length}
      {places matched left : List (Fin all.length)} :
      scan.examine (all.get place) = .ok (scan.pass (all.get place)) →
      Scans all (scan.pass (all.get place)) places matched left last →
      Scans all scan (place :: places) matched (place :: left) last
  | admits {scan next last : Scan} {place : Fin all.length}
      {places matched left : List (Fin all.length)} :
      scan.examine (all.get place) = .ok next →
      next.waiting = scan.waiting →
      Scans all next places matched left last →
      Scans all scan (place :: places) (place :: matched) left last

/-- The scans of a search, with the places that each of them matches.  A scan
that found a base is followed by one over the places it left. -/
inductive Searches (all : List Definition) : Search →
    List (Fin all.length) → List (List (Fin all.length)) → Search → Prop
  | ends {search : Search} {last : Scan}
      {places matched left : List (Fin all.length)} :
      Scans all (Scan.start search) places matched left last →
      last.found = 0 →
      Searches all search places [matched] last.search
  | again {search result : Search} {last : Scan}
      {places matched left : List (Fin all.length)}
      {passes : List (List (Fin all.length))} :
      Scans all (Scan.start search) places matched left last →
      last.found ≠ 0 →
      Searches all last.search left passes result →
      Searches all search places (matched :: passes) result

theorem examine_eq_ok_cases {next : Scan}
    (examined : scan.examine definition = .ok next) :
    (next = scan.pass definition ∧ ∀ superclass,
      HasSuperclass definition superclass →
        superclass ∉ scan.search.bases) ∨
    (∃ superclass descriptor tests, HasSuperclass definition superclass ∧
      superclass ∈ scan.search.bases ∧
      HasDescriptor definition descriptor ∧
      next = scan.admitClass descriptor tests) := by
  unfold Scan.examine at examined
  unfold HasSuperclass HasDescriptor
  cases known :
      definition.segment.superclassDescriptor? definition.classDef with
  | error fault =>
      rw [known] at examined
      cases examined
  | ok superclass? =>
      rw [known] at examined
      cases superclass? with
      | none =>
          cases examined
          refine Or.inl ⟨rfl, ?_⟩
          intro superclass impossible
          cases impossible
      | some superclass =>
          by_cases isBase : superclass ∈ scan.search.bases
          · simp only [if_pos isBase] at examined
            cases described :
                definition.segment.classDescriptor definition.classDef with
            | error fault =>
                rw [described] at examined
                cases examined
            | ok descriptor =>
                cases found : testsOf definition with
                | error fault =>
                    rw [described, found] at examined
                    cases examined
                | ok tests =>
                    rw [described, found] at examined
                    cases examined
                    exact Or.inr ⟨superclass, descriptor, tests, rfl, isBase,
                      rfl, rfl⟩
          · simp only [if_neg isBase] at examined
            cases examined
            refine Or.inl ⟨rfl, ?_⟩
            intro other same
            cases same
            exact isBase

theorem no_base_of_passed
    (examined : scan.examine definition = .ok (scan.pass definition))
    (superclass : String) (known : HasSuperclass definition superclass) :
    superclass ∉ scan.search.bases := by
  rcases examine_eq_ok_cases examined with ⟨_, noBase⟩ |
    ⟨_, _, _, _, _, _, same⟩
  · exact noBase superclass known
  · have sameLength := congrArg (fun scan => scan.waiting.length) same
    simp at sameLength

theorem exists_admitClass_of_not_waiting {next : Scan}
    (examined : scan.examine definition = .ok next)
    (notWaiting : next.waiting = scan.waiting) :
    ∃ superclass descriptor tests, HasSuperclass definition superclass ∧
      superclass ∈ scan.search.bases ∧
      HasDescriptor definition descriptor ∧
      next = scan.admitClass descriptor tests := by
  rcases examine_eq_ok_cases examined with ⟨same, _⟩ | admitted
  · subst same
    have sameLength := congrArg List.length notWaiting
    simp at sameLength
  · exact admitted

private theorem exists_scans
    (ran : (places.map all.get).foldlM Scan.examine scan = .ok last) :
    ∃ matched left, Scans all scan places matched left last := by
  induction places generalizing scan with
  | nil =>
      cases ran
      exact ⟨[], [], .done⟩
  | cons place places ih =>
      rw [List.map_cons, List.foldlM_cons] at ran
      obtain ⟨next, examined, rest⟩ := bind_eq_ok_iff.mp ran
      obtain ⟨matched, left, scans⟩ := ih rest
      rcases examine_eq_ok_cases examined with ⟨same, _⟩ |
        ⟨_, _, _, _, _, _, same⟩
      · subst same
        exact ⟨matched, place :: left, .passes examined scans⟩
      · exact ⟨place :: matched, left,
          .admits examined (by rw [same]; rfl) scans⟩

private theorem Scans.waiting
    (scans : Scans all scan places matched left last) :
    last.waiting = (left.map all.get).reverse ++ scan.waiting := by
  induction scans with
  | done => rfl
  | passes _ _ ih => simp [ih]
  | admits _ kept _ ih => rw [ih, kept]

private theorem Scans.foldlM_eq
    (scans : Scans all scan places matched left last) :
    (places.map all.get).foldlM Scan.examine scan = .ok last := by
  induction scans with
  | done => rfl
  | passes examined _ ih =>
      rw [List.map_cons, List.foldlM_cons]
      exact bind_eq_ok_iff.mpr ⟨_, examined, ih⟩
  | admits examined _ _ ih =>
      rw [List.map_cons, List.foldlM_cons]
      exact bind_eq_ok_iff.mpr ⟨_, examined, ih⟩

theorem Scans.reverse_waiting
    (scans : Scans all (Scan.start search) places matched left last) :
    last.waiting.reverse = left.map all.get := by
  rw [scans.waiting]
  simp

private theorem exists_searches (search : Search) (waiting : List Definition) :
    ∀ places : List (Fin all.length), places.map all.get = waiting →
      search.complete waiting = .ok result →
      ∃ passes, Searches all search places passes result := by
  induction search, waiting using Search.complete.induct with
  | case1 search waiting error failed =>
      intro places _ completed
      rw [Search.complete_of_error failed] at completed
      cases completed
  | case2 search waiting last scanned settled =>
      intro places stand completed
      rw [Search.complete_of_settled scanned settled] at completed
      cases completed
      obtain ⟨matched, left, scans⟩ := exists_scans (stand ▸ scanned)
      exact ⟨[matched], .ends scans settled⟩
  | case3 search waiting last scanned progress ih =>
      intro places stand completed
      rw [Search.complete_of_progress scanned progress] at completed
      obtain ⟨matched, left, scans⟩ := exists_scans (stand ▸ scanned)
      obtain ⟨passes, searches⟩ :=
        ih left scans.reverse_waiting.symm completed
      exact ⟨matched :: passes, .again scans progress searches⟩

private theorem exists_searches_iff :
    (∃ passes, Searches all search places passes result) ↔
      search.complete (places.map all.get) = .ok result := by
  constructor
  · intro ⟨passes, searches⟩
    induction searches with
    | ends scans settled =>
        exact Search.complete_of_settled scans.foldlM_eq settled
    | again scans progress _ ih =>
        rw [Search.complete_of_progress scans.foldlM_eq progress,
          scans.reverse_waiting, ih]
  · exact exists_searches search _ places rfl

namespace Scans

theorem perm (scans : Scans all scan places matched left last) :
    (matched ++ left).Perm places := by
  induction scans with
  | done => exact List.Perm.refl []
  | passes _ _ ih => exact List.perm_middle.trans (ih.cons _)
  | admits _ _ _ ih => exact ih.cons _

theorem bases_mono (scans : Scans all scan places matched left last)
    (base : String) (known : base ∈ scan.search.bases) :
    base ∈ last.search.bases := by
  induction scans with
  | done => exact known
  | passes _ _ ih => exact ih known
  | admits examined kept _ ih =>
      obtain ⟨_, descriptor, tests, _, _, _, rfl⟩ :=
        exists_admitClass_of_not_waiting examined kept
      exact ih ((mem_admitClass_bases _ descriptor tests base).mpr
        (Or.inl known))

theorem count_scans (scans : Scans all scan places matched left last) :
    last.search.scans = scan.search.scans := by
  induction scans with
  | done => rfl
  | passes _ _ ih => exact ih
  | admits examined kept _ ih =>
      obtain ⟨_, _, _, _, _, _, rfl⟩ :=
        exists_admitClass_of_not_waiting examined kept
      exact ih

theorem no_base_of_left (scans : Scans all scan places matched left last)
    (place : Fin all.length) (isLeft : place ∈ left) (superclass : String)
    (known : HasSuperclass (all.get place) superclass) :
    superclass ∉ scan.search.bases := by
  induction scans with
  | done => cases isLeft
  | passes examined _ ih =>
      rcases List.mem_cons.mp isLeft with rfl | later
      · exact no_base_of_passed examined superclass known
      · exact ih later
  | admits examined kept _ ih =>
      obtain ⟨_, descriptor, tests, _, _, _, rfl⟩ :=
        exists_admitClass_of_not_waiting examined kept
      intro isBase
      exact ih isLeft ((mem_admitClass_bases _ descriptor tests _).mpr
        (Or.inl isBase))

private theorem base_of_matched
    (scans : Scans all scan places matched left last)
    (place : Fin all.length) (isMatched : place ∈ matched)
    (descriptor : String) (named : HasDescriptor (all.get place) descriptor) :
    descriptor ∈ last.search.bases := by
  induction scans with
  | done => cases isMatched
  | passes _ _ ih => exact ih isMatched
  | admits examined kept scans ih =>
      rcases List.mem_cons.mp isMatched with rfl | later
      · obtain ⟨_, other, tests, _, _, described, rfl⟩ :=
          exists_admitClass_of_not_waiting examined kept
        apply scans.bases_mono
        exact (mem_admitClass_bases _ other tests _).mpr
          (Or.inr (named.unique described))
      · exact ih later

theorem matched_of_new_base (scans : Scans all scan places matched left last)
    (base : String) (known : base ∈ last.search.bases) :
    base ∈ scan.search.bases ∨
      ∃ place ∈ matched, HasDescriptor (all.get place) base := by
  induction scans with
  | done => exact Or.inl known
  | passes _ _ ih => exact ih known
  | admits examined kept _ ih =>
      obtain ⟨_, descriptor, tests, _, _, described, rfl⟩ :=
        exists_admitClass_of_not_waiting examined kept
      rcases ih known with before | ⟨place, isMatched, named⟩
      · rcases (mem_admitClass_bases _ descriptor tests base).mp before with
          old | rfl
        · exact Or.inl old
        · exact Or.inr ⟨_, List.mem_cons_self, described⟩
      · exact Or.inr ⟨place, List.mem_cons_of_mem _ isMatched, named⟩

private theorem found_le (scans : Scans all scan places matched left last) :
    scan.found ≤ last.found := by
  induction scans with
  | done => exact Nat.le_refl _
  | passes _ _ ih => exact ih
  | admits examined kept _ ih =>
      obtain ⟨_, _, _, _, _, _, rfl⟩ :=
        exists_admitClass_of_not_waiting examined kept
      refine Nat.le_trans ?_ ih
      simp only [Scan.admitClass]
      split <;> omega

theorem found_eq_iff (scans : Scans all scan places matched left last) :
    last.found = scan.found ↔
      ∀ base ∈ last.search.bases, base ∈ scan.search.bases := by
  induction scans with
  | done => simp
  | passes _ _ ih => exact ih
  | @admits scan _ last place _ _ _ examined kept scans ih =>
      obtain ⟨_, descriptor, tests, _, _, _, rfl⟩ :=
        exists_admitClass_of_not_waiting examined kept
      have bases := mem_admitClass_bases scan descriptor tests
      by_cases known : descriptor ∈ scan.search.bases
      · have sameFound : (scan.admitClass descriptor tests).found =
            scan.found := by
          simp [Scan.admitClass, known]
        have sameBases (base : String) :
            base ∈ (scan.admitClass descriptor tests).search.bases ↔
              base ∈ scan.search.bases := by
          rw [bases, or_iff_left_iff_imp]
          rintro rfl
          exact known
        rw [← sameFound, ih]
        simp only [sameBases]
      · have oneFound : (scan.admitClass descriptor tests).found =
            scan.found + 1 := by
          simp [Scan.admitClass, known]
        have atLeast := scans.found_le
        have isBase := scans.bases_mono descriptor
          ((bases descriptor).mpr (Or.inr rfl))
        constructor
        · intro same
          omega
        · intro within
          exact (known (within descriptor isBase)).elim

end Scans

/-! ### What holds between two scans -/

/-- The bases are those of the platform and descriptors of test classes, and
among them are the descriptors of all definitions that no longer wait. -/
structure Frontier (all : List Definition) (search : Search)
    (places : List (Fin all.length)) : Prop where
  platform : ∀ base ∈ platformBases, base ∈ search.bases
  sound : ∀ base ∈ search.bases, base ∈ platformBases ∨
    ∃ definition, TestClass all definition ∧ HasDescriptor definition base
  covered : ∀ place ∉ places, ∀ descriptor,
    HasDescriptor (all.get place) descriptor → descriptor ∈ search.bases

theorem frontier_initial (all : List Definition) :
    Frontier all Search.initial (List.finRange all.length) := by
  constructor
  case platform => simp [Search.initial]
  case sound =>
    intro base known
    exact Or.inl (by simpa [Search.initial] using known)
  case covered =>
    intro place notWaiting
    exact (notWaiting (List.mem_finRange place)).elim

private theorem Scans.testClass_of_matched
    (scans : Scans all scan places matched left last)
    (sound : ∀ base ∈ scan.search.bases, base ∈ platformBases ∨
      ∃ definition, TestClass all definition ∧ HasDescriptor definition base)
    (place : Fin all.length) (isMatched : place ∈ matched) :
    TestClass all (all.get place) := by
  induction scans with
  | done => cases isMatched
  | passes _ _ ih => exact ih sound isMatched
  | @admits scan _ last here _ _ _ examined kept scans ih =>
      obtain ⟨superclass, descriptor, tests, known, isBase, described, rfl⟩ :=
        exists_admitClass_of_not_waiting examined kept
      have testClass : TestClass all (all.get here) := by
        rcases sound superclass isBase with ofPlatform |
          ⟨base, member, named⟩
        · exact .seed (List.get_mem all here) known ofPlatform
        · exact .step (List.get_mem all here) known member named
      rcases List.mem_cons.mp isMatched with rfl | later
      · exact testClass
      · refine ih ?_ later
        intro base inBases
        rcases (mem_admitClass_bases scan descriptor tests base).mp inBases
          with old | rfl
        · exact sound base old
        · exact Or.inr ⟨_, testClass, described⟩

namespace Frontier

private theorem testClass_of_matched (frontier : Frontier all search places)
    (scans : Scans all (Scan.start search) places matched left last)
    (place : Fin all.length) (isMatched : place ∈ matched) :
    TestClass all (all.get place) :=
  scans.testClass_of_matched frontier.sound place isMatched

private theorem next (frontier : Frontier all search places)
    (scans : Scans all (Scan.start search) places matched left last) :
    Frontier all last.search left := by
  constructor
  case platform =>
    intro base ofPlatform
    exact scans.bases_mono base (frontier.platform base ofPlatform)
  case sound =>
    intro base known
    rcases scans.matched_of_new_base base known with
      old | ⟨place, isMatched, named⟩
    · exact frontier.sound base old
    · exact Or.inr ⟨_, frontier.testClass_of_matched scans place isMatched,
        named⟩
  case covered =>
    intro place notLeft descriptor named
    by_cases waited : place ∈ places
    · rcases List.mem_append.mp (scans.perm.mem_iff.mpr waited) with
        isMatched | isLeft
      · exact scans.base_of_matched place isMatched descriptor named
      · exact (notLeft isLeft).elim
    · exact scans.bases_mono descriptor
        (frontier.covered place waited descriptor named)

private theorem base_of_superclass (frontier : Frontier all search places)
    (scans : Scans all (Scan.start search) places matched left last)
    {superclass descriptor : String} (inAll : definition ∈ all)
    (known : HasSuperclass definition superclass)
    (isBase : superclass ∈ search.bases)
    (named : HasDescriptor definition descriptor) :
    descriptor ∈ last.search.bases := by
  obtain ⟨place, rfl⟩ := List.get_of_mem inAll
  have notLeft : place ∉ left := by
    intro isLeft
    exact scans.no_base_of_left place isLeft superclass known isBase
  exact (frontier.next scans).covered place notLeft descriptor named

end Frontier

/-- The descriptors of all classes within some number of links are bases. -/
def Reached (all : List Definition) (search : Search) (links : Nat) : Prop :=
  ∀ definition distance, LinkedBy all definition distance →
    distance ≤ links → ∀ descriptor, HasDescriptor definition descriptor →
      descriptor ∈ search.bases

private theorem reached_zero (all : List Definition) (search : Search) :
    Reached all search 0 := by
  intro definition distance linked near
  cases linked <;> omega

private theorem Reached.next {links : Nat} (reached : Reached all search links)
    (frontier : Frontier all search places)
    (scans : Scans all (Scan.start search) places matched left last) :
    Reached all last.search (links + 1) := by
  intro definition distance linked near descriptor named
  cases linked with
  | seed inAll known ofPlatform =>
      exact frontier.base_of_superclass scans inAll known
        (frontier.platform _ ofPlatform) named
  | step inAll known below baseNamed =>
      have isBase := reached _ _ below (by omega) _ baseNamed
      exact frontier.base_of_superclass scans inAll known isBase named

private theorem Reached.found_eq_zero {farthest : Nat}
    (reached : Reached all search farthest)
    (isFarthest : Farthest all farthest)
    (frontier : Frontier all search places)
    (scans : Scans all (Scan.start search) places matched left last) :
    last.found = 0 := by
  refine scans.found_eq_iff.mpr ?_
  intro base known
  rcases scans.matched_of_new_base base known with
    old | ⟨place, isMatched, named⟩
  · exact old
  · have member := frontier.testClass_of_matched scans place isMatched
    obtain ⟨links, distance⟩ := member.exists_distance
    have near := isFarthest.2 (Set.mem_insert_of_mem 0 ⟨_, distance⟩)
    exact reached _ links distance.1 near base named

namespace Searches

theorem count_scans (searches : Searches all search places passes result) :
    result.scans = search.scans + passes.length := by
  induction searches with
  | ends scans _ => exact scans.count_scans
  | again scans _ _ ih =>
      rw [ih, scans.count_scans, List.length_cons]
      simp only [Scan.start]
      omega

theorem length_le {farthest : Nat} (isFarthest : Farthest all farthest)
    (searches : Searches all search places passes result) :
    ∀ links, Frontier all search places → Reached all search links →
      links ≤ farthest → links + passes.length ≤ farthest + 1 := by
  induction searches with
  | ends _ _ =>
      intro links _ _ near
      exact Nat.succ_le_succ near
  | again scans progress _ ih =>
      intro links frontier reached near
      have notYet : links ≠ farthest := by
        rintro rfl
        exact progress (reached.found_eq_zero isFarthest frontier scans)
      have rest := ih (links + 1) (frontier.next scans)
        (reached.next frontier scans) (by omega)
      rw [List.length_cons]
      omega

private theorem outcome (searches : Searches all search places passes result)
    (frontier : Frontier all search places) :
    ∃ left, (passes.flatten ++ left).Perm places ∧
      Frontier all result left ∧
      (∀ place ∈ passes.flatten, TestClass all (all.get place)) ∧
      ∀ place ∈ left, ∀ superclass,
        HasSuperclass (all.get place) superclass →
          superclass ∉ result.bases := by
  induction searches with
  | @ends search last places matched left scans settled =>
      refine ⟨left, by simpa using scans.perm, frontier.next scans, ?_, ?_⟩
      · intro place member
        rw [List.flatten_singleton] at member
        exact frontier.testClass_of_matched scans place member
      · intro place isLeft superclass known isBase
        have noneNew := scans.found_eq_iff.mp settled
        exact scans.no_base_of_left place isLeft superclass known
          (noneNew superclass isBase)
  | @again search result last places matched waits passes scans _ _ ih =>
      obtain ⟨left, perm, ended, sound, settled⟩ := ih (frontier.next scans)
      refine ⟨left, ?_, ended, ?_, settled⟩
      · rw [List.flatten_cons, List.append_assoc]
        exact (perm.append_left matched).trans scans.perm
      · intro place member
        rcases List.mem_append.mp member with now | later
        · exact frontier.testClass_of_matched scans place now
        · exact sound place later

private theorem matches_testClasses
    (searches : Searches all Search.initial (List.finRange all.length)
      passes result) :
    passes.flatten.Nodup ∧
      ∀ place, place ∈ passes.flatten ↔ TestClass all (all.get place) := by
  obtain ⟨left, perm, ended, sound, settled⟩ :=
    searches.outcome (frontier_initial all)
  have nodup := perm.nodup_iff.mpr (List.nodup_finRange all.length)
  have matched_of_base (place : Fin all.length) (superclass : String)
      (known : HasSuperclass (all.get place) superclass)
      (isBase : superclass ∈ result.bases) : place ∈ passes.flatten := by
    have member := perm.mem_iff.mpr (List.mem_finRange place)
    rcases List.mem_append.mp member with isMatched | isLeft
    · exact isMatched
    · exact (settled place isLeft superclass known isBase).elim
  refine ⟨(List.nodup_append.mp nodup).1, fun place => ⟨sound place, ?_⟩⟩
  intro member
  generalize stands : all.get place = definition at member
  induction member generalizing place with
  | seed _ known ofPlatform =>
      subst stands
      exact matched_of_base place _ known (ended.platform _ ofPlatform)
  | step _ known member named ih =>
      subst stands
      obtain ⟨below, stands⟩ := List.get_of_mem member.mem
      have notLeft : below ∉ left := by
        intro isLeft
        exact (List.nodup_append.mp nodup).2.2 below (ih below stands) below
          isLeft rfl
      exact matched_of_base place _ known
        (ended.covered below notLeft _ (stands ▸ named))

end Searches

/-- The search ends after at most one scan more than the farthest test class
is links away from the platform.  So there is at most one scan more than there
are definitions, whatever the hierarchy looks like and wherever the classes
stand.  Each test class is matched once and no other definition is matched, and
it makes no difference whether a scan looks only at what is waiting or at
everything that has not been matched. -/
theorem rescanning_bounded_by_distance (segments : List IndexedSegment)
    (readable : ¬ Unreadable (Definition.ofSegments segments)) :
    ∃ passes result farthest,
      Definition.ofSegments segments =
        ((segments.zipIdx 1).flatMap fun (segment, number) =>
          segment.classDefs.toList.map fun classDef =>
            { segmentNumber := number, segment := segment,
              classDef := classDef }) ∧
      Rescans (Definition.ofSegments segments) Search.initial []
        (.ok result) ∧
      Searches (Definition.ofSegments segments) Search.initial
        (List.finRange (Definition.ofSegments segments).length) passes
        result ∧
      Search.initial.complete (Definition.ofSegments segments) =
        .ok result ∧
      findTests segments = .ok result.tests.toList ∧
      result.scans = passes.length ∧
      Farthest (Definition.ofSegments segments) farthest ∧
      result.scans ≤ farthest + 1 ∧
      farthest ≤ (Definition.ofSegments segments).length ∧
      result.scans ≤ (Definition.ofSegments segments).length + 1 ∧
      passes.flatten.Nodup ∧
      ∀ place, place ∈ passes.flatten ↔
        TestClass (Definition.ofSegments segments)
          ((Definition.ofSegments segments).get place) := by
  obtain ⟨tests, found⟩ := findTests_of_readable readable
  obtain ⟨result, completed, listed⟩ := bind_eq_ok_iff.mp found
  cases listed
  have everywhere := List.map_get_finRange (Definition.ofSegments segments)
  obtain ⟨passes, searches⟩ :=
    exists_searches_iff.mpr (everywhere.symm ▸ completed)
  obtain ⟨farthest, isFarthest, within⟩ :=
    exists_farthest (Definition.ofSegments segments)
  have counted : result.scans = passes.length := by
    rw [searches.count_scans]
    exact Nat.zero_add _
  have few := searches.length_le isFarthest 0 (frontier_initial _)
    (reached_zero _ _) (Nat.zero_le farthest)
  obtain ⟨once, testClasses⟩ := searches.matches_testClasses
  exact ⟨passes, result, farthest, Definition.ofSegmentsFrom_eq 1 segments,
    (rescans_initial_iff _).mpr completed, searches, completed, found, counted,
    isFarthest, by omega, within, by omega, once, testClasses⟩

/-! ### A loop that hangs on the platform -/

/-- The descriptors `Ljunit/framework/TestCase;`, `LA;` and `LB;`. -/
def seededDescriptors : Bytes :=
  #[26, 0x4c, 0x6a, 0x75, 0x6e, 0x69, 0x74, 0x2f, 0x66, 0x72, 0x61, 0x6d,
    0x65, 0x77, 0x6f, 0x72, 0x6b, 0x2f, 0x54, 0x65, 0x73, 0x74, 0x43, 0x61,
    0x73, 0x65, 0x3b, 0, 3, 0x4c, 0x41, 0x3b, 0, 3, 0x4c, 0x42, 0x3b, 0]

def seededTypes (classDefs : Array ClassDef) : Segment :=
  { header := JUnit4.blankHeader
    strings := #[0, 28, 33]
    types := #[0, 1, 2]
    prototypes := #[]
    fields := #[]
    methods := #[]
    classDefs := classDefs
    data := seededDescriptors }

private theorem seededTypes_typeDescriptor (classDefs : Array ClassDef) :
    (seededTypes classDefs).typeDescriptor 0 =
      .ok "Ljunit/framework/TestCase;" ∧
    (seededTypes classDefs).typeDescriptor 1 = .ok "LA;" ∧
    (seededTypes classDefs).typeDescriptor 2 = .ok "LB;" := by
  have described (index offset length : UInt32) (start : Nat) (text : String)
      (listed : Segment.entry .types (seededTypes classDefs).types index =
        .ok index)
      (found : Segment.entry .strings (seededTypes classDefs).strings index =
        .ok offset)
      (counted : Reader.uleb128 seededDescriptors offset.toNat =
        .ok (length, start))
      (stands : text.toList.map plainByte ++ [0] <+:
        seededDescriptors.toList.drop start)
      (plain : IsPlain text.toList) :
      (seededTypes classDefs).typeDescriptor index = .ok text :=
    typeDescriptor_of_plain listed found counted stands plain
  exact ⟨described 0 0 26 1 _ rfl rfl rfl (by decide) (by decide),
    described 1 28 3 29 _ rfl rfl rfl (by decide) (by decide),
    described 2 33 3 34 _ rfl rfl rfl (by decide) (by decide)⟩

/-- `B` extends `A`, which is only defined in the next segment. -/
def lowerPart : IndexedSegment :=
  (seededTypes #[JUnit4.bareClass 2 1]).indexed

/-- `A` extends the platform, and another `A` extends `B`. -/
def upperPart : IndexedSegment :=
  (seededTypes #[JUnit4.bareClass 1 0, JUnit4.bareClass 1 2]).indexed

private theorem seededLoop_reads :
    ∀ definition ∈ Definition.ofSegments [lowerPart, upperPart],
      (∃ superclass, HasSuperclass definition superclass) ∧
        testsOf definition = .ok [] := by
  have described := seededTypes_typeDescriptor
  have all : Definition.ofSegments [lowerPart, upperPart] =
      [{ segmentNumber := 1, segment := lowerPart,
         classDef := JUnit4.bareClass 2 1 },
       { segmentNumber := 2, segment := upperPart,
         classDef := JUnit4.bareClass 1 0 },
       { segmentNumber := 2, segment := upperPart,
         classDef := JUnit4.bareClass 1 2 }] := rfl
  rw [all]
  simp only [List.forall_mem_cons]
  refine ⟨⟨⟨"LA;", ?lowerLink⟩, ?lowerTests⟩,
    ⟨⟨"Ljunit/framework/TestCase;", ?upperLink⟩, ?upperTests⟩,
    ⟨⟨"LB;", ?loopLink⟩, ?loopTests⟩, by simp⟩
  case lowerLink => exact bind_eq_ok_iff.mpr ⟨_, (described _).2.1, rfl⟩
  case upperLink => exact bind_eq_ok_iff.mpr ⟨_, (described _).1, rfl⟩
  case loopLink => exact bind_eq_ok_iff.mpr ⟨_, (described _).2.2, rfl⟩
  case lowerTests =>
    exact bind_eq_ok_iff.mpr ⟨"B",
      bind_eq_ok_iff.mpr ⟨_, (described _).2.2, by decide⟩, rfl⟩
  case upperTests =>
    exact bind_eq_ok_iff.mpr ⟨"A",
      bind_eq_ok_iff.mpr ⟨_, (described _).2.1, by decide⟩, rfl⟩
  case loopTests =>
    exact bind_eq_ok_iff.mpr ⟨"A",
      bind_eq_ok_iff.mpr ⟨_, (described _).2.1, by decide⟩, rfl⟩

private theorem seededLoop_readable :
    ¬ Unreadable (Definition.ofSegments [lowerPart, upperPart]) := by
  rintro (⟨definition, member, fault, failed⟩ |
    ⟨definition, testClass, broken⟩)
  · obtain ⟨⟨superclass, known⟩, _⟩ := seededLoop_reads definition member
    cases failed.symm.trans known
  · exact not_broken (seededLoop_reads definition testClass.mem).2 broken

/-- Three definitions, so at most four scans. -/
theorem seededLoop_rescans : ∃ result,
    Search.initial.complete (Definition.ofSegments [lowerPart, upperPart]) =
      .ok result ∧ result.scans ≤ 4 := by
  obtain ⟨_, result, _, _, _, _, completed, _, _, _, _, _, few, _⟩ :=
    rescanning_bounded_by_distance [lowerPart, upperPart] seededLoop_readable
  exact ⟨result, completed, few⟩

end JUnit3
end DexCensus
