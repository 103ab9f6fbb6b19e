/-
What the program does with its options.

The program reads one package and prints a report on its tests, or writes the
report to a file in a given directory.  Reading and writing are done outside:
this file takes what was read and says what to print and to write.
-/

import DexCensus.Package
import DexCensus.Report

namespace DexCensus
namespace CommandLine

open Archive

structure Options where
  package : String
  outputDirectory : Option String
  markers : List String
  format : Report.Format

def joined (directory name : String) : String :=
  if directory = "" then name
  else if Package.endsWith directory "/" then directory ++ name
  else directory ++ "/" ++ name

def reportPath (options : Options) (directory : String) : String :=
  joined directory (Report.fileName options.format)

def linesOf (text : String) : List (List Char) :=
  text.toList.splitOn '\n'

/-- A text whose first line follows `lead` and whose other lines follow
`margin`. -/
def hanging (lead margin text : String) : String :=
  match linesOf text with
  | [] => lead
  | first :: rest =>
      lead ++ String.ofList first
        ++ String.join (rest.map fun line =>
          "\n" ++ margin ++ String.ofList line)

def aligned (number : Nat) : String :=
  let digits := toString number
  String.ofList (List.replicate (5 - digits.length) ' ') ++ digits

/-- Causes with their numbers, from a given number on, one per line. -/
def numberedCauses : Nat → List String → String
  | _, [] => ""
  | number, cause :: rest =>
      "\n" ++ hanging (aligned number ++ ": ") "       " cause
        ++ numberedCauses (number + 1) rest

/-- Causes, one per line.  A single cause has no number. -/
def listedCauses : List String → String
  | [] => ""
  | [cause] => "\n\nCaused by:\n" ++ hanging "    " "    " cause
  | causes => "\n\nCaused by:" ++ numberedCauses 0 causes

def errorReport (headline : String) (causes : List String) : String :=
  "Error: " ++ headline ++ listedCauses causes ++ "\n"

def readFailure (options : Options) (error : PackageError) : String :=
  errorReport ("failed to read tests from " ++ options.package)
    (error.message :: error.causes)

def writeFailure (path : String) (fault : FileFault) : String :=
  errorReport ("failed to write " ++ path) [fault.message]

/-! ### Runs -/

structure Outcome where
  exitCode : UInt8
  output : String
  files : List (String × String)
  errorText : Option String

namespace Outcome

def failed (errorText : String) : Outcome :=
  { exitCode := 1, output := "", files := [], errorText := some errorText }

def printed (text : String) : Outcome :=
  { exitCode := 0, output := text, files := [], errorText := none }

def written (path text : String) : Outcome :=
  { exitCode := 0, output := "", files := [(path, text)], errorText := none }

end Outcome

/-- The outcome of a run that found some tests, or failed to.  `writable`
tells whether a file can be written. -/
def conclude (options : Options)
    (tests : Except PackageError (List TestMethod))
    (writable : String → Except FileFault Unit) : Outcome :=
  match tests with
  | .error error => .failed (readFailure options error)
  | .ok methods =>
      let text := Report.render options.format methods
      match options.outputDirectory with
      | none => .printed text
      | some directory =>
          let path := reportPath options directory
          match writable path with
          | .ok _ => .written path text
          | .error fault => .failed (writeFailure path fault)

def run (options : Options) (file : Package.File)
    (writable : String → Except FileFault Unit) : Outcome :=
  conclude options (Package.findMethods options.markers file) writable

end CommandLine
end DexCensus
