import RouteDocs.CommandLine.Report

/-!
# RouteDocs.Main — the program

The files that a command is about are taken from disk into a tree, the command is run on it, and the
files that it changed are written back.
-/

namespace RouteDocs.Main

/-- More directories than there are above the working directory. -/
def depth : Nat := 1024

/-- Whether there is a directory on disk at a path. -/
def isDirectoryOnDisk (path : String) : IO Bool :=
  (IO.FS.DirEntry.mk ⟨"."⟩ path).path.isDir

/-- What is on disk at a path. -/
def entryOnDisk? (path : String) : IO (Option Entry) := do
  if ← isDirectoryOnDisk path then return some .directory
  try
    let content ← IO.FS.readBinFile ⟨path⟩
    return some (.file content.toList)
  catch _ => return none

/-- The tree with what is on disk at a path and on the way to it. -/
def take (files : FileTree) (p : Path) : IO FileTree := do
  let mut files := files
  for n in List.range p.names.length do
    let q : Path := { p with names := p.names.take (n + 1) }
    match files.place q with
    | .error _ => pure ()
    | .ok place =>
      if (files.entry? place).isNone then
        if let some e ← entryOnDisk? q.text then
          files := files.put place e
  return files

/-- The path of a place on disk. -/
def diskPath (p : Place) : String :=
  let start := if p.above = depth then "/" else String.join (List.replicate p.above "../")
  start ++ "/".intercalate p.down

/-- The manifest and the output directory of a command. -/
def pathsOf : Command → List Path
  | .help => []
  | .routes manifest => [.ofText manifest]
  | .generate manifest output _ _ _ _ => [.ofText manifest, .ofText output]

/-- The further files that a command may read or write. -/
def furtherPaths (files : FileTree) (environment : Option String) : Command → List Path
  | .generate manifest output _ _ _ _ =>
    let path := Path.ofText manifest
    match CommandLine.load files environment path [] with
    | .error _ => []
    | .ok loaded =>
      let sources := loaded.manifest.handlers.filterMap fun h =>
        h.2.source?.map path.parent.join
      let directory := Path.ofText output
      sources ++ [directory.join loaded.settings.yamlFilename,
        directory.join loaded.settings.htmlFilename]
  | _ => []

/-- Writes what a run changed. -/
def keep (before after : FileTree) : IO Unit := do
  for (p, e) in after.entries do
    if before.entry? p ≠ some e then
      match e with
      | .directory => IO.FS.createDirAll ⟨diskPath p⟩
      | .file content => IO.FS.writeBinFile ⟨diskPath p⟩ ⟨content.toArray⟩

/-- Runs a command on the files on disk. -/
def perform (environment : Option String) (command : Command) : IO CommandLine.Run := do
  let mut files : FileTree := { depth }
  for p in pathsOf command do
    files ← take files p
  for p in furtherPaths files environment command do
    files ← take files p
  let run := CommandLine.runCommand files environment command
  keep files run.files
  return run

end RouteDocs.Main

open RouteDocs in
/-- Runs the command that the arguments ask for. -/
def main (args : List String) : IO UInt32 := do
  let environment ← IO.getEnv "APP_URL"
  match Command.ofArguments args with
  | .ok .help =>
    IO.print CommandLine.usageText
    return 0
  | .ok command =>
    let run ← Main.perform environment command
    IO.print run.printed
    let (text, code) := run.ending.report
    IO.eprint text
    return code.toUInt32
  | .error e =>
    let (text, code) := CommandLine.Ending.report (.usage e)
    IO.eprint text
    return code.toUInt32
