/-
Which segments a package contributes, and which error it fails with.

An opened package is a list of entries, each of which is open or cannot be
opened.  What one entry contributes is described on its own: its bytes if it
has the name of a segment, the bytes of the first segment inside if it is a jar
in the place for secondary segments, and nothing otherwise.  The package
contributes what its entries do, in order, or fails as the first entry that
fails.  How jars are opened is left open.
-/

import DexCensus.Package
import DexCensus.Proofs.Computation

namespace DexCensus
namespace Package

open Archive

def IsDex (name : String) : Prop :=
  ".dex".toList <:+ name.toList

def IsSecondaryJar (name : String) : Prop :=
  secondaryPlace.toList <:+: name.toList ∧ ".jar".toList <:+ name.toList

private theorem occursIn_iff (run chars : List Char) :
    occursIn run chars = true ↔ run <:+: chars := by
  induction chars with
  | nil => simp [occursIn]
  | cons char rest ih =>
      rw [occursIn, Bool.or_eq_true, ih, List.isPrefixOf_iff_prefix,
        List.infix_cons_iff]

theorem isDexName_iff (name : String) : isDexName name = true ↔ IsDex name :=
  List.isSuffixOf_iff_suffix

theorem isSecondaryJarName_iff (name : String) :
    isSecondaryJarName name = true ↔ IsSecondaryJar name := by
  rw [isSecondaryJarName, Bool.and_eq_true, occursIn_iff]
  exact and_congr_right fun _ => List.isSuffixOf_iff_suffix

instance (name : String) : Decidable (IsDex name) :=
  decidable_of_iff _ (isDexName_iff name)

instance (name : String) : Decidable (IsSecondaryJar name) :=
  decidable_of_iff _ (isSecondaryJarName_iff name)

theorem IsDex.not_isSecondaryJar {name : String} (dex : IsDex name) :
    ¬ IsSecondaryJar name := by
  intro ⟨_, jar⟩
  have within := List.suffix_of_suffix_length_le dex jar (by decide)
  exact absurd (within.eq_of_length (by decide)) (by decide)

/-- The first segment of an opened jar: all entries up to it are open, and it
reads. -/
def FirstDex (inner : Opened) (bytes : Bytes) : Prop :=
  ∃ (before : List OpenEntry) (entry : OpenEntry) (after : Opened),
    inner = before.map .ok ++ .ok entry :: after ∧
    (∀ earlier ∈ before, ¬ IsDex earlier.name) ∧ IsDex entry.name ∧
    entry.content.get = .ok bytes

/-- How an opened jar fails to give its first segment: an entry before it
cannot be opened, it cannot be read, or there is none. -/
inductive FirstDexFails (jarName : String) : Opened → PackageError → Prop
  | unopened (before : List OpenEntry) {fault : Archive.Fault}
      {after : Opened} :
      (∀ earlier ∈ before, ¬ IsDex earlier.name) →
        FirstDexFails jarName (before.map .ok ++ .error fault :: after)
          (.archive fault)
  | unreadable (before : List OpenEntry) {entry : OpenEntry}
      {fault : FileFault} {after : Opened} :
      (∀ earlier ∈ before, ¬ IsDex earlier.name) → IsDex entry.name →
      entry.content.get = .error fault →
        FirstDexFails jarName (before.map .ok ++ .ok entry :: after)
          (.io fault)
  | noDex (inner : List OpenEntry) :
      (∀ entry ∈ inner, ¬ IsDex entry.name) →
        FirstDexFails jarName (inner.map .ok) (.noDexInside jarName)

theorem contentOf_eq_ok_iff (entry : OpenEntry) (bytes : Bytes) :
    contentOf entry = .ok bytes ↔ entry.content.get = .ok bytes := by
  unfold contentOf
  cases entry.content.get with
  | ok found => simp
  | error fault => simp

theorem contentOf_eq_error_iff (entry : OpenEntry) (error : PackageError) :
    contentOf entry = .error error ↔
      ∃ fault, entry.content.get = .error fault ∧ error = .io fault := by
  unfold contentOf
  cases entry.content.get with
  | ok found => simp
  | error fault => simp [eq_comm]

theorem FirstDex.cons {entry : OpenEntry} {inner : Opened} {bytes : Bytes}
    (other : ¬ IsDex entry.name) (first : FirstDex inner bytes) :
    FirstDex (.ok entry :: inner) bytes := by
  obtain ⟨before, found, after, split, others, rest⟩ := first
  exact ⟨entry :: before, found, after, congrArg _ split,
    List.forall_mem_cons.mpr ⟨other, others⟩, rest⟩

theorem FirstDexFails.cons {jarName : String} {entry : OpenEntry}
    {inner : Opened} {error : PackageError} (other : ¬ IsDex entry.name)
    (fails : FirstDexFails jarName inner error) :
    FirstDexFails jarName (.ok entry :: inner) error := by
  cases fails with
  | unopened before others =>
      exact .unopened (entry :: before)
        (List.forall_mem_cons.mpr ⟨other, others⟩)
  | unreadable before others dex unread =>
      exact .unreadable (entry :: before)
        (List.forall_mem_cons.mpr ⟨other, others⟩) dex unread
  | noDex inner others =>
      exact .noDex (entry :: inner)
        (List.forall_mem_cons.mpr ⟨other, others⟩)

private theorem firstDex_cases (jarName : String) (inner : Opened) :
    (∃ bytes, firstDex jarName inner = .ok bytes ∧ FirstDex inner bytes) ∨
      ∃ error, firstDex jarName inner = .error error ∧
        FirstDexFails jarName inner error := by
  induction inner with
  | nil => exact Or.inr ⟨_, rfl, .noDex [] (by simp)⟩
  | cons first rest ih =>
      cases first with
      | error fault =>
          exact Or.inr ⟨_, rfl, .unopened [] (by simp)⟩
      | ok entry =>
          rw [firstDex]
          by_cases dex : IsDex entry.name
          · rw [if_pos ((isDexName_iff _).mpr dex)]
            cases read : entry.content.get with
            | ok bytes =>
                exact Or.inl ⟨bytes, (contentOf_eq_ok_iff _ _).mpr read, [],
                  entry, rest, rfl, by simp, dex, read⟩
            | error fault =>
                exact Or.inr ⟨_, (contentOf_eq_error_iff _ _).mpr
                  ⟨fault, read, rfl⟩, .unreadable [] (by simp) dex
                    read⟩
          · rw [if_neg fun isName => dex ((isDexName_iff _).mp isName)]
            rcases ih with ⟨bytes, found, right⟩ | ⟨error, failed, right⟩
            · exact Or.inl ⟨bytes, found, right.cons dex⟩
            · exact Or.inr ⟨error, failed, right.cons dex⟩

theorem firstDex_append (jarName : String) {before : List OpenEntry}
    (others : ∀ earlier ∈ before, ¬ IsDex earlier.name) (rest : Opened) :
    firstDex jarName (before.map .ok ++ rest) = firstDex jarName rest := by
  induction before with
  | nil => rfl
  | cons entry before ih =>
      obtain ⟨other, others⟩ := List.forall_mem_cons.mp others
      rw [List.map_cons, List.cons_append, firstDex,
        if_neg fun isName => other ((isDexName_iff _).mp isName), ih others]

theorem firstDex_of_dex (jarName : String) {entry : OpenEntry}
    (dex : IsDex entry.name) (after : Opened) :
    firstDex jarName (.ok entry :: after) = contentOf entry := by
  rw [firstDex, if_pos ((isDexName_iff _).mpr dex)]

theorem FirstDex.firstDex_eq {inner : Opened} {bytes : Bytes}
    (first : FirstDex inner bytes) (jarName : String) :
    firstDex jarName inner = .ok bytes := by
  obtain ⟨before, entry, after, split, others, dex, read⟩ := first
  rw [split, firstDex_append jarName others, firstDex_of_dex jarName dex,
    contentOf_eq_ok_iff]
  exact read

theorem FirstDexFails.firstDex_eq {jarName : String} {inner : Opened}
    {error : PackageError} (fails : FirstDexFails jarName inner error) :
    firstDex jarName inner = .error error := by
  cases fails with
  | unopened _ others => exact firstDex_append jarName others _
  | unreadable _ others dex unread =>
      rw [firstDex_append jarName others, firstDex_of_dex jarName dex,
        contentOf_eq_error_iff]
      exact ⟨_, unread, rfl⟩
  | noDex inner others =>
      have passed := firstDex_append jarName others []
      rwa [List.append_nil] at passed

/-! ### Entries of a package -/

section Entries

variable (openJar : Bytes → Except Archive.Fault Opened)

/-- What an entry contributes: its bytes, those of the first segment inside,
or nothing. -/
inductive Contributes : Except Archive.Fault OpenEntry → Option Bytes → Prop
  | dex {entry : OpenEntry} {bytes : Bytes} :
      IsDex entry.name → entry.content.get = .ok bytes →
        Contributes (.ok entry) (some bytes)
  | jar {entry : OpenEntry} {bytes first : Bytes} {inner : Opened} :
      IsSecondaryJar entry.name → entry.content.get = .ok bytes →
      openJar bytes = .ok inner → FirstDex inner first →
        Contributes (.ok entry) (some first)
  | nothing {entry : OpenEntry} :
      ¬ IsDex entry.name → ¬ IsSecondaryJar entry.name →
        Contributes (.ok entry) none

/-- How an entry fails: it cannot be opened, its bytes are wanted and cannot
be read, or it is a jar that is no archive or that gives no segment. -/
inductive Fails : Except Archive.Fault OpenEntry → PackageError → Prop
  | unopened (fault : Archive.Fault) : Fails (.error fault) (.archive fault)
  | unreadable {entry : OpenEntry} {fault : FileFault} :
      IsDex entry.name ∨ IsSecondaryJar entry.name →
      entry.content.get = .error fault → Fails (.ok entry) (.io fault)
  | noArchive {entry : OpenEntry} {bytes : Bytes} {fault : Archive.Fault} :
      IsSecondaryJar entry.name → entry.content.get = .ok bytes →
      openJar bytes = .error fault → Fails (.ok entry) (.archive fault)
  | inside {entry : OpenEntry} {bytes : Bytes} {inner : Opened}
      {error : PackageError} :
      IsSecondaryJar entry.name → entry.content.get = .ok bytes →
      openJar bytes = .ok inner → FirstDexFails entry.name inner error →
        Fails (.ok entry) error

variable {openJar} {entry : OpenEntry}

theorem segmentOf_of_dex (dex : IsDex entry.name) :
    segmentOf openJar (.ok entry) = (contentOf entry).map some := by
  rw [segmentOf, if_pos ((isDexName_iff _).mpr dex)]

theorem segmentOf_of_jar (jar : IsSecondaryJar entry.name) :
    segmentOf openJar (.ok entry) =
      match contentOf entry with
      | .error error => .error error
      | .ok bytes =>
          match openJar bytes with
          | .error fault => .error (.archive fault)
          | .ok inner => (firstDex entry.name inner).map some := by
  have notDex : ¬ isDexName entry.name = true := by
    rw [isDexName_iff]
    exact fun dex => dex.not_isSecondaryJar jar
  rw [segmentOf, if_neg notDex]
  exact if_pos ((isSecondaryJarName_iff _).mpr jar)

theorem segmentOf_of_other (notDex : ¬ IsDex entry.name)
    (notJar : ¬ IsSecondaryJar entry.name) :
    segmentOf openJar (.ok entry) = .ok none := by
  rw [← isDexName_iff] at notDex
  rw [← isSecondaryJarName_iff] at notJar
  rw [segmentOf, if_neg notDex, if_neg notJar]

theorem Contributes.segmentOf_eq {entry : Except Archive.Fault OpenEntry}
    {segment : Option Bytes} (contributes : Contributes openJar entry segment) :
    segmentOf openJar entry = .ok segment := by
  cases contributes with
  | dex dex read =>
      rw [segmentOf_of_dex dex, (contentOf_eq_ok_iff _ _).mpr read]
      rfl
  | jar jar read opened found =>
      rw [segmentOf_of_jar jar, (contentOf_eq_ok_iff _ _).mpr read]
      simp only [opened, found.firstDex_eq]
      rfl
  | nothing notDex notJar => exact segmentOf_of_other notDex notJar

theorem Fails.segmentOf_eq {entry : Except Archive.Fault OpenEntry}
    {error : PackageError} (fails : Fails openJar entry error) :
    segmentOf openJar entry = .error error := by
  cases fails with
  | unopened fault => rfl
  | unreadable wanted unread =>
      have failed := (contentOf_eq_error_iff _ _).mpr ⟨_, unread, rfl⟩
      rcases wanted with dex | jar
      · rw [segmentOf_of_dex dex, failed]
        rfl
      · rw [segmentOf_of_jar jar, failed]
  | noArchive jar read unopened =>
      rw [segmentOf_of_jar jar, (contentOf_eq_ok_iff _ _).mpr read]
      simp only [unopened]
  | inside jar read opened fails =>
      rw [segmentOf_of_jar jar, (contentOf_eq_ok_iff _ _).mpr read]
      simp only [opened, fails.firstDex_eq]
      rfl

variable (openJar)

theorem contributes_or_fails (entry : Except Archive.Fault OpenEntry) :
    (∃ segment, Contributes openJar entry segment) ∨
      ∃ error, Fails openJar entry error := by
  cases entry with
  | error fault => exact Or.inr ⟨_, .unopened fault⟩
  | ok entry =>
      by_cases wanted : IsDex entry.name ∨ IsSecondaryJar entry.name
      · cases read : entry.content.get with
        | error fault => exact Or.inr ⟨_, .unreadable wanted read⟩
        | ok bytes =>
            rcases wanted with dex | jar
            · exact Or.inl ⟨_, .dex dex read⟩
            · cases opened : openJar bytes with
              | error fault => exact Or.inr ⟨_, .noArchive jar read opened⟩
              | ok inner =>
                  rcases firstDex_cases entry.name inner with
                    ⟨first, _, found⟩ | ⟨error, _, fails⟩
                  · exact Or.inl ⟨_, .jar jar read opened found⟩
                  · exact Or.inr ⟨_, .inside jar read opened fails⟩
      · obtain ⟨notDex, notJar⟩ := not_or.mp wanted
        exact Or.inl ⟨_, .nothing notDex notJar⟩

theorem segmentOf_eq_ok_iff (entry : Except Archive.Fault OpenEntry)
    (segment : Option Bytes) :
    segmentOf openJar entry = .ok segment ↔
      Contributes openJar entry segment := by
  refine ⟨?_, Contributes.segmentOf_eq⟩
  intro found
  rcases contributes_or_fails openJar entry with
    ⟨other, contributes⟩ | ⟨error, fails⟩
  · cases found.symm.trans contributes.segmentOf_eq
    exact contributes
  · cases found.symm.trans fails.segmentOf_eq

theorem segmentOf_eq_error_iff (entry : Except Archive.Fault OpenEntry)
    (error : PackageError) :
    segmentOf openJar entry = .error error ↔ Fails openJar entry error := by
  refine ⟨?_, Fails.segmentOf_eq⟩
  intro failed
  rcases contributes_or_fails openJar entry with
    ⟨segment, contributes⟩ | ⟨other, fails⟩
  · cases failed.symm.trans contributes.segmentOf_eq
  · cases failed.symm.trans fails.segmentOf_eq
    exact fails

/-- An entry that a package can be read with: it is open, it reads if it is a
segment, and if it is a secondary jar it reads, is an archive and has a first
segment. -/
def Usable : Except Archive.Fault OpenEntry → Prop
  | .error _ => False
  | .ok entry =>
      (IsDex entry.name → ∃ bytes, entry.content.get = .ok bytes) ∧
      (IsSecondaryJar entry.name → ∃ bytes inner first,
        entry.content.get = .ok bytes ∧ openJar bytes = .ok inner ∧
          FirstDex inner first)

theorem usable_iff (entry : Except Archive.Fault OpenEntry) :
    Usable openJar entry ↔
      ∃ segment, segmentOf openJar entry = .ok segment := by
  simp only [segmentOf_eq_ok_iff]
  constructor
  · intro usable
    cases entry with
    | error fault => exact usable.elim
    | ok entry =>
        obtain ⟨reads, unpacks⟩ := usable
        by_cases dex : IsDex entry.name
        · obtain ⟨bytes, read⟩ := reads dex
          exact ⟨_, .dex dex read⟩
        · by_cases jar : IsSecondaryJar entry.name
          · obtain ⟨bytes, inner, first, read, opened, found⟩ := unpacks jar
            exact ⟨_, .jar jar read opened found⟩
          · exact ⟨_, .nothing dex jar⟩
  · intro ⟨segment, contributes⟩
    cases contributes with
    | dex dex read =>
        exact ⟨fun _ => ⟨_, read⟩,
          fun jar => (dex.not_isSecondaryJar jar).elim⟩
    | jar jar read opened found =>
        exact ⟨fun dex => (dex.not_isSecondaryJar jar).elim,
          fun _ => ⟨_, _, _, read, opened, found⟩⟩
    | nothing notDex notJar =>
        exact ⟨fun dex => (notDex dex).elim, fun jar => (notJar jar).elim⟩

/-- A secondary jar that reads and is an archive, all of whose entries are
open, but none of them is a segment. -/
def JarWithoutDex (jar : OpenEntry) : Prop :=
  IsSecondaryJar jar.name ∧ ∃ (bytes : Bytes) (inner : List OpenEntry),
    jar.content.get = .ok bytes ∧ openJar bytes = .ok (inner.map .ok) ∧
      ∀ entry ∈ inner, ¬ IsDex entry.name

private theorem fails_noDexInside_iff (entry : Except Archive.Fault OpenEntry)
    (jarName : String) :
    Fails openJar entry (.noDexInside jarName) ↔
      ∃ jar, entry = .ok jar ∧ jar.name = jarName ∧
        JarWithoutDex openJar jar := by
  constructor
  · intro fails
    cases fails with
    | @inside jar bytes _ _ isJar read opened insideFails =>
        cases insideFails with
        | noDex inner others =>
            exact ⟨jar, rfl, rfl, isJar, bytes, inner, read, opened, others⟩
  · rintro ⟨jar, rfl, rfl, isJar, bytes, inner, read, opened, others⟩
    exact .inside isJar read opened (.noDex _ others)

end Entries

section Packages

variable (openJar : Bytes → Except Archive.Fault Opened)

theorem segmentsOf_eq_ok_iff (package : Opened) (segments : List Bytes) :
    segmentsOf openJar package = .ok segments ↔
      ∃ parts, List.Forall₂ (Contributes openJar) package parts ∧
        segments = parts.reduceOption := by
  rw [segmentsOf, bind_eq_ok_iff]
  simp only [mapM_eq_ok_iff, segmentOf_eq_ok_iff]
  constructor
  · intro ⟨parts, each, whole⟩
    exact ⟨parts, each, (Except.ok.inj whole).symm⟩
  · rintro ⟨parts, each, rfl⟩
    exact ⟨parts, each, rfl⟩

theorem segmentsOf_eq_error_iff (package : Opened) (error : PackageError) :
    segmentsOf openJar package = .error error ↔
      ∃ before entry after, package = before ++ entry :: after ∧
        (∀ earlier ∈ before, Usable openJar earlier) ∧
        Fails openJar entry error := by
  simp only [usable_iff, ← segmentOf_eq_error_iff]
  rw [← mapM_eq_error_iff, segmentsOf]
  cases package.mapM (segmentOf openJar) with
  | ok found => exact iff_of_false nofun nofun
  | error other =>
      constructor <;>
      · intro failed
        cases failed
        rfl

private theorem segmentsOf_succeeds_iff (package : Opened) :
    (∃ segments, segmentsOf openJar package = .ok segments) ↔
      ∀ entry ∈ package, Usable openJar entry := by
  simp only [usable_iff]
  constructor
  · intro ⟨segments, found⟩ entry member
    obtain ⟨parts, ran, _⟩ := bind_eq_ok_iff.mp found
    obtain ⟨segment, _, gives⟩ :=
      exists_mem_of_forall₂ (mapM_eq_ok_iff.mp ran) entry member
    exact ⟨segment, gives⟩
  · intro usable
    cases found : segmentsOf openJar package with
    | ok segments => exact ⟨segments, rfl⟩
    | error error =>
        obtain ⟨before, entry, after, split, _, fails⟩ :=
          (segmentsOf_eq_error_iff openJar package error).mp found
        obtain ⟨segment, gives⟩ := usable entry (by simp [split])
        cases gives.symm.trans fails.segmentOf_eq

private theorem segmentsOf_insert {entry : OpenEntry}
    (notDex : ¬ IsDex entry.name)
    (notJar : ¬ IsSecondaryJar entry.name) (before after : Opened) :
    segmentsOf openJar (before ++ .ok entry :: after) =
      segmentsOf openJar (before ++ after) := by
  simp only [segmentsOf, List.mapM_append, List.mapM_cons,
    segmentOf_of_other notDex notJar]
  cases before.mapM (segmentOf openJar) with
  | error error => rfl
  | ok front =>
      cases after.mapM (segmentOf openJar) with
      | error error => rfl
      | ok back =>
          refine congrArg Except.ok ?_
          simp

/-- A package contributes what its entries do, in order, if all of them are
usable, and it fails as the first one that is not.  Only a jar whose entries
are all open, but none a segment, is told to have none.  Open entries that
are neither segments nor secondary jars make no difference. -/
theorem segmentsOf_selects_exactly (package : Opened) :
    ((∃ segments, segmentsOf openJar package = .ok segments) ↔
      ∀ entry ∈ package, Usable openJar entry) ∧
    (∀ segments, segmentsOf openJar package = .ok segments ↔
      ∃ parts, List.Forall₂ (Contributes openJar) package parts ∧
        segments = parts.reduceOption) ∧
    (∀ error, segmentsOf openJar package = .error error ↔
      ∃ before entry after, package = before ++ entry :: after ∧
        (∀ earlier ∈ before, Usable openJar earlier) ∧
        Fails openJar entry error) ∧
    (∀ jarName, segmentsOf openJar package = .error (.noDexInside jarName) ↔
      ∃ before jar after, package = before ++ .ok jar :: after ∧
        (∀ earlier ∈ before, Usable openJar earlier) ∧
        jar.name = jarName ∧ JarWithoutDex openJar jar) ∧
    ∀ before entry after, package = before ++ after →
      ¬ IsDex entry.name → ¬ IsSecondaryJar entry.name →
        segmentsOf openJar (before ++ .ok entry :: after) =
          segmentsOf openJar package := by
  refine ⟨segmentsOf_succeeds_iff openJar package,
    segmentsOf_eq_ok_iff openJar package,
    segmentsOf_eq_error_iff openJar package, ?_, ?_⟩
  · intro jarName
    rw [segmentsOf_eq_error_iff]
    simp only [fails_noDexInside_iff]
    constructor
    · rintro ⟨before, _, after, split, usable, jar, rfl, named, without⟩
      exact ⟨before, jar, after, split, usable, named, without⟩
    · rintro ⟨before, jar, after, split, usable, named, without⟩
      exact ⟨before, _, after, split, usable, jar, rfl, named, without⟩
  · rintro before entry after rfl notDex notJar
    exact segmentsOf_insert openJar notDex notJar before after

end Packages

/-! ### A package with a secondary jar -/

def storedEntry (name : String) (content : Except FileFault Bytes) :
    OpenEntry :=
  { name := name, content := Thunk.mk fun _ => content }

/-- An archive of two stored entries: `m`, which is empty, and `a.dex` with
the byte 7. -/
def jarBytes : Bytes :=
  #[80, 75, 3, 4, 20, 0, 0, 0, 0, 0, 0, 0, 33, 0, 0, 0, 0, 0, 0, 0, 0, 0, 0, 0,
    0, 0, 1, 0, 0, 0, 109,
    80, 75, 3, 4, 20, 0, 0, 0, 0, 0, 0, 0, 33, 0, 46, 122, 102, 76, 1, 0, 0, 0,
    1, 0, 0, 0, 5, 0, 0, 0, 97, 46, 100, 101, 120, 7,
    80, 75, 1, 2, 20, 0, 20, 0, 0, 0, 0, 0, 0, 0, 33, 0, 0, 0, 0, 0, 0, 0, 0, 0,
    0, 0, 0, 0, 1, 0, 0, 0, 0, 0, 0, 0, 0, 0, 0, 0, 0, 0, 0, 0, 0, 0, 109,
    80, 75, 1, 2, 20, 0, 20, 0, 0, 0, 0, 0, 0, 0, 33, 0, 46, 122, 102, 76, 1, 0,
    0, 0, 1, 0, 0, 0, 5, 0, 0, 0, 0, 0, 0, 0, 0, 0, 0, 0, 0, 0, 31, 0, 0, 0,
    97, 46, 100, 101, 120,
    80, 75, 5, 6, 0, 0, 0, 0, 2, 0, 2, 0, 98, 0, 0, 0, 67, 0, 0, 0, 0, 0]

def emptyJarBytes : Bytes :=
  #[80, 75, 5, 6, 0, 0, 0, 0, 0, 0, 0, 0, 0, 0, 0, 0, 0, 0, 0, 0, 0, 0]

def jarRecord (name : String) (checksum : UInt32) (size position : Nat) :
    Entry :=
  { name := name
    isEncrypted := false
    hasEncryptionField := false
    method := 0
    checksum := checksum
    compressedSize := size
    position := position }

set_option maxRecDepth 8000 in
private theorem entries_jarBytes : entries jarBytes =
    .ok [jarRecord "m" 0 0 0, jarRecord "a.dex" 0x4c667a2e 1 31] := by
  rfl

set_option maxRecDepth 8000 in
private theorem opened_jarBytes : ∃ inner, opened jarBytes = .ok inner ∧
    FirstDex inner #[7] := by
  have read : readEntry jarBytes (jarRecord "a.dex" 0x4c667a2e 1 31) .stored
      66 = .ok #[7] := by
    cbv
  have opens : opened jarBytes = .ok ([jarRecord "m" 0 0 0,
      jarRecord "a.dex" 0x4c667a2e 1 31].map (openEntry jarBytes)) := by
    rw [opened, entries_jarBytes]
    rfl
  exact ⟨_, opens, [_], _, [], rfl, by decide, by decide, read⟩

private theorem opened_emptyJarBytes : opened emptyJarBytes = .ok [] := by
  rfl

def dexEntry : OpenEntry :=
  storedEntry "classes.dex" (.ok #[1])

def secondaryJar : OpenEntry :=
  storedEntry "assets/secondary-program-dex-jars/secondary-1.dex.jar"
    (.ok jarBytes)

def emptyJar : OpenEntry :=
  storedEntry "assets/secondary-program-dex-jars/empty.jar"
    (.ok emptyJarBytes)

/-- A jar elsewhere, which is neither read nor unpacked. -/
def unrelatedJar : OpenEntry :=
  storedEntry "assets/libs/unrelated.jar" (.error .badChecksum)

private theorem secondaryJar_contributes :
    Contributes opened (.ok secondaryJar) (some #[7]) := by
  obtain ⟨inner, opens, first⟩ := opened_jarBytes
  exact .jar (by decide) rfl opens first

private theorem usable_of_contributes {entry : Except Archive.Fault OpenEntry}
    {segment : Option Bytes} (contributes : Contributes opened entry segment) :
    Usable opened entry :=
  (usable_iff opened entry).mpr ⟨segment, contributes.segmentOf_eq⟩

/-- The two segments come in the order of the entries, with or without the
unrelated jar between them.  The empty jar is the error, although an entry
behind it cannot be opened. -/
theorem secondaryJar_selected :
    segmentsOf opened [.ok dexEntry, .ok unrelatedJar, .ok secondaryJar] =
      .ok [#[1], #[7]] ∧
    segmentsOf opened
        [.ok dexEntry, .ok secondaryJar, .ok emptyJar, .error .encrypted] =
      .error (.noDexInside "assets/secondary-program-dex-jars/empty.jar") := by
  have dex : Contributes opened (.ok dexEntry) (some #[1]) :=
    .dex (by decide) rfl
  have jar := secondaryJar_contributes
  obtain ⟨_, succeeds, _, _, inserted⟩ :=
    segmentsOf_selects_exactly opened [.ok dexEntry, .ok secondaryJar]
  obtain ⟨_, _, _, withoutDex, _⟩ := segmentsOf_selects_exactly opened
    [.ok dexEntry, .ok secondaryJar, .ok emptyJar, .error .encrypted]
  constructor
  · have unchanged := inserted [.ok dexEntry] unrelatedJar [.ok secondaryJar]
      rfl (by decide) (by decide)
    refine unchanged.trans ((succeeds _).mpr ?_)
    exact ⟨_, .cons dex (.cons jar .nil), rfl⟩
  · refine (withoutDex _).mpr ⟨[.ok dexEntry, .ok secondaryJar], emptyJar,
      [.error .encrypted], rfl, ?_, rfl, by decide, emptyJarBytes, [], rfl,
      opened_emptyJarBytes, by simp⟩
    simp only [List.forall_mem_cons]
    exact ⟨usable_of_contributes dex, usable_of_contributes jar, by simp⟩

end Package
end DexCensus
