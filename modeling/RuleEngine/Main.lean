/-
  RuleEngine/Main.lean
  ====================
  **The command line.**

  This is the outer layer: it reads the files that the arguments and the environment
  name, hands them to the program, and prints what the program says.  Directories are
  not listed here, so expansions are taken to be missing.
-/
import RuleEngine.Program

namespace RuleEngine.Main

def readBytes? (path : String) : IO (Option (List UInt8)) := do
  try
    return some (← IO.FS.readBinFile path).toList
  catch _ =>
    return none

def readTree (paths : List String) : IO FileTree := do
  let mut files : FileTree := { start := ["."] }
  for path in paths do
    match ← readBytes? path with
    | some bytes => files := files.write path (.file (.bytes bytes) 0)
    | none => pure ()
  return files

def readUser : IO UserEnvironment := do
  return {
    home? := ← IO.getEnv "HOME"
    configHome? := ← IO.getEnv "XDG_CONFIG_HOME"
    dataHome? := ← IO.getEnv "XDG_DATA_HOME"
    cacheHome? := ← IO.getEnv "XDG_CACHE_HOME" }

def readChances : IO Chances := do
  let bytes ← IO.getRandomBytes 8
  let seed := bytes.toList.foldl (fun n b => n * 256 + b.toUInt64) 0
  return { seed, clock := ← IO.monoMsNow }

end RuleEngine.Main

def main (arguments : List String) : IO UInt32 := do
  let user ← RuleEngine.Main.readUser
  let files ← RuleEngine.Main.readTree (RuleEngine.Program.filesRead user arguments)
  let chances ← RuleEngine.Main.readChances
  let outcome := RuleEngine.Program.execute { files, user, chances } arguments
  for message in outcome.messages do
    IO.eprintln message
  for item in outcome.output do
    IO.println item
  return UInt32.ofNat outcome.code
