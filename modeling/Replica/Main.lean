import Replica.CommandLine.Run
/-! The command line program. -/

open Replica.CommandLine

/-- The kind of failure of reading a file. -/
def fileErrorOf : IO.Error → FileError
  | .inappropriateType _ 21 _ => .isDirectory
  | .inappropriateType _ 20 _ => .notDirectory
  | _ => .notFound

/-- Reads a file, if one is given. -/
def loadFile (path : String) : IO (Except FileError (List UInt8)) := do
  try
    return .ok (← IO.FS.readBinFile path).toList
  catch error => return .error (fileErrorOf error)

/-- The paths of the files that a request needs. -/
def pathsOf : Request → List String
  | .replay input config _ _ => [config, input]
  | .inspect input config _ => config.toList ++ [input]
  | _ => []

def main (words : List String) : IO UInt32 := do
  let paths := (Request.ofWords? words).elim [] pathsOf
  let files ← paths.mapM fun path => return (path, ← loadFile path)
  let lookup : Files := fun path =>
    match files.find? (·.1 == path) with
    | some (_, content) => content
    | none => .error .notFound
  let effect := run 1000000000000 lookup words
  IO.print effect.out
  IO.eprint effect.err
  return effect.code.toUInt32
