/-
The dex segments of an application package.

A package is an archive.  Every entry whose name ends in `.dex` is a segment.
A jar in the place for secondary segments is an archive again and contributes
the first such entry inside it.  All entries of the package are opened, also
those that are passed over; inside a jar entries are opened up to the one that
is taken.
-/

import DexCensus.Archive.Entry
import DexCensus.Discovery

namespace DexCensus

open Archive

inductive PackageError where
  | io (fault : FileFault)
  /-- The package, or a jar in it, is no archive that can be opened. -/
  | archive (fault : Archive.Fault)
  | dex (error : DexError)
  | noDexInside (jarName : String)

namespace PackageError

def message : PackageError → String
  | .io fault => "I/O error: " ++ fault.message
  | .archive fault => "ZIP error: " ++ fault.message
  | .dex error => error.message
  | .noDexInside jarName => jarName ++ " contains no dex file"

def causes : PackageError → List String
  | .io fault => [fault.message]
  | .archive fault => fault.message :: fault.causes
  | .dex error => [error.message]
  | .noDexInside _ => []

end PackageError

namespace Package

def occursIn (run : List Char) : List Char → Bool
  | [] => run.isEmpty
  | char :: rest => run.isPrefixOf (char :: rest) || occursIn run rest

def endsWith (name ending : String) : Bool :=
  ending.toList.isSuffixOf name.toList

def isDexName (name : String) : Bool :=
  endsWith name ".dex"

def secondaryPlace : String :=
  "secondary-program-dex-jars"

def isSecondaryJarName (name : String) : Bool :=
  occursIn secondaryPlace.toList name.toList && endsWith name ".jar"

def contentOf (entry : OpenEntry) : Except PackageError Bytes :=
  match entry.content.get with
  | .ok bytes => .ok bytes
  | .error fault => .error (.io fault)

def firstDex (jarName : String) : Opened → Except PackageError Bytes
  | [] => .error (.noDexInside jarName)
  | .error fault :: _ => .error (.archive fault)
  | .ok entry :: rest =>
      if isDexName entry.name then contentOf entry else firstDex jarName rest

/-- The segment that an entry contributes, if it contributes one.  `openJar`
opens an archive inside the package. -/
def segmentOf (openJar : Bytes → Except Archive.Fault Opened) :
    Except Archive.Fault OpenEntry → Except PackageError (Option Bytes)
  | .error fault => .error (.archive fault)
  | .ok entry =>
      if isDexName entry.name then (contentOf entry).map some
      else if isSecondaryJarName entry.name then
        match contentOf entry with
        | .error error => .error error
        | .ok bytes =>
            match openJar bytes with
            | .error fault => .error (.archive fault)
            | .ok inner => (firstDex entry.name inner).map some
      else .ok none

def segmentsOf (openJar : Bytes → Except Archive.Fault Opened)
    (package : Opened) : Except PackageError (List Bytes) := do
  let found ← package.mapM (segmentOf openJar)
  return found.filterMap id

def dexBuffers (bytes : Bytes) : Except PackageError (List Bytes) :=
  match opened bytes with
  | .error fault => .error (.archive fault)
  | .ok package => segmentsOf opened package

/-- What reading the file of a package may give: its bytes, or the reason why
there are none. -/
abbrev File : Type := Except FileFault Bytes

/-- What is found in a package: the redefinitions that were met, and the tests
in order of their names or the error. -/
structure Findings where
  redefinitions : List JUnit4.Redefinition
  tests : Except PackageError (List TestMethod)

def discover (markers : List String) (file : File) : Findings :=
  match file with
  | .error fault => { redefinitions := [], tests := .error (.io fault) }
  | .ok bytes =>
      match dexBuffers bytes with
      | .error error => { redefinitions := [], tests := .error error }
      | .ok buffers =>
          let found := Discovery.ofBuffers markers buffers
          { redefinitions := found.redefinitions
            tests := found.tests.mapError .dex }

def findMethods (markers : List String) (file : File) :
    Except PackageError (List TestMethod) :=
  (discover markers file).tests

def findNames (markers : List String) (file : File) :
    Except PackageError (List String) :=
  (findMethods markers file).map TestMethod.names

end Package
end DexCensus
