/-
The options of the program from its arguments.

The first argument that is no option is the path of the package, the second
one the output directory.  An option takes its value from the next argument,
from behind an equals sign, or, in its short form, from the same argument.
Two hyphens alone end the options.
-/

import DexCensus.CommandLine

namespace DexCensus
namespace Arguments

open CommandLine

inductive Problem where
  | missingPackage
  | missingValue (option : String)
  | unknownOption (argument : String)
  | unknownFormat (name : String)
  | tooMany (argument : String)
  deriving DecidableEq

def Problem.message : Problem → String
  | .missingPackage => "the path of a package is required"
  | .missingValue option => s!"a value is required for '{option}'"
  | .unknownOption argument => s!"unexpected argument '{argument}' found"
  | .unknownFormat name =>
      s!"invalid value '{name}' for '--format' (possible values: text, json)"
  | .tooMany argument => s!"unexpected argument '{argument}' found"

structure Progress where
  paths : List String
  markers : List String
  format : Report.Format

def Progress.initial : Progress :=
  { paths := [], markers := [], format := .text }

inductive Setting where
  | marker
  | format
  deriving DecidableEq

def settings : List (Setting × String × String) :=
  [(.marker, "--annotation", "-A"), (.format, "--format", "-f")]

def formatOf (name : String) : Except Problem Report.Format :=
  if name = "text" then .ok .text
  else if name = "json" then .ok .json
  else .error (.unknownFormat name)

def Progress.set (progress : Progress) (setting : Setting) (value : String) :
    Except Problem Progress :=
  match setting with
  | .marker => .ok { progress with markers := progress.markers ++ [value] }
  | .format => do
      let format ← formatOf value
      return { progress with format := format }

def Progress.addPath (progress : Progress) (path : String) :
    Except Problem Progress :=
  if progress.paths.length < 2 then
    .ok { progress with paths := progress.paths ++ [path] }
  else .error (.tooMany path)

def after? (start text : String) : Option String :=
  if start.toList.isPrefixOf text.toList then
    some (String.ofList (text.toList.drop start.length))
  else none

def joinedSetting? (argument : String) : Option (Setting × String) :=
  settings.findSome? fun (setting, long, short) =>
    match after? (long ++ "=") argument with
    | some value => some (setting, value)
    | none =>
        match after? (short ++ "=") argument with
        | some value => some (setting, value)
        | none => (after? short argument).map fun value => (setting, value)

def setting? (argument : String) : Option Setting :=
  settings.findSome? fun (setting, long, short) =>
    if argument = long ∨ argument = short then some setting else none

def looksLikeOption (argument : String) : Bool :=
  match argument.toList with
  | '-' :: _ :: _ => true
  | _ => false

def onlyPaths (progress : Progress) : List String → Except Problem Progress
  | [] => .ok progress
  | path :: rest => do
      let progress ← progress.addPath path
      onlyPaths progress rest

def scan (progress : Progress) : List String → Except Problem Progress
  | [] => .ok progress
  | argument :: rest =>
      if argument = "--" then onlyPaths progress rest
      else
        match setting? argument with
        | some setting =>
            match rest with
            | [] => .error (.missingValue argument)
            | value :: rest => do
                let progress ← progress.set setting value
                scan progress rest
        | none =>
            match joinedSetting? argument with
            | some (setting, value) => do
                let progress ← progress.set setting value
                scan progress rest
            | none =>
                if looksLikeOption argument then
                  .error (.unknownOption argument)
                else do
                  let progress ← progress.addPath argument
                  scan progress rest

def options (arguments : List String) : Except Problem Options := do
  let progress ← scan Progress.initial arguments
  match progress.paths with
  | [] => .error .missingPackage
  | package :: rest =>
      return {
        package := package
        outputDirectory := rest.head?
        markers := progress.markers
        format := progress.format }

end Arguments
end DexCensus
