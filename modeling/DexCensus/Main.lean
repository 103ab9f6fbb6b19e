/-
The program: lists the test methods of an application package.

This is the only file that reads and writes.  What to read, to print and to
write is decided elsewhere.
-/

import DexCensus.Arguments

namespace DexCensus
namespace Program

open Archive CommandLine

def faultOf (problem : IO.Error) : FileFault :=
  match problem with
  | .noFileOrDirectory .. => .notFound
  | .permissionDenied _ code details => .other s!"{details} (os error {code})"
  | .inappropriateType _ code details => .other s!"{details} (os error {code})"
  | other => .other (toString other)

def readPackage (path : String) : IO Package.File := do
  try
    let content ← IO.FS.readBinFile path
    return .ok content.data
  catch problem =>
    return .error (faultOf problem)

def writeReport (path text : String) : IO (Except FileFault Unit) := do
  try
    IO.FS.writeFile path text
    return .ok ()
  catch problem =>
    return .error (faultOf problem)

def writeAll (outcome : Outcome) : IO Outcome := do
  let mut result := outcome
  for (path, text) in outcome.files do
    match ← writeReport path text with
    | .ok _ => pure ()
    | .error fault => result := Outcome.failed (writeFailure path fault)
  return result

def run (options : Options) : IO UInt8 := do
  let file ← readPackage options.package
  let found := Package.discover options.markers file
  for redefinition in found.redefinitions do
    IO.eprintln s!"WARN {redefinition.message}"
  let planned := conclude options found.tests fun _ => .ok ()
  let outcome ← writeAll planned
  IO.print outcome.output
  match outcome.errorText with
  | some report => IO.eprint report
  | none => pure ()
  return outcome.exitCode

end Program
end DexCensus

def main (arguments : List String) : IO UInt32 := do
  match DexCensus.Arguments.options arguments with
  | .error problem =>
      IO.eprintln s!"error: {problem.message}"
      return 2
  | .ok options =>
      let exitCode ← DexCensus.Program.run options
      return exitCode.toUInt32
