import BytecodeParity.CommandLine.Command
import BytecodeParity.Timestamp
import Std.Time

/-!
The command as a program. The files below the working folder, and below the paths that the arguments
name, are read into a tree; the command runs on the tree; then what it changed is written back.
-/

set_option autoImplicit false

namespace BytecodeParity.Main

def locationOf (folder path : String) : Location :=
  Path.names (Path.join folder path)

def isScript (content : ByteArray) : Bool :=
  content.toList.take 2 = "#!".toUTF8.toList

partial def readBelow (tree : FileTree) (location : Location) : IO FileTree := do
  let path := (← IO.currentDir) / Path.ofLocation location
  match (← path.symlinkMetadata).type with
  | .dir =>
      let mut tree := tree.putFolders location
      for entry in ← path.readDir do
        tree ← readBelow tree (location ++ [entry.fileName])
      return tree
  | .file =>
      let content ← IO.FS.readBinFile path
      return (tree.putFolders location.dropLast).put location (.file content (isScript content))
  | .symlink =>
      let target ← IO.FS.realPath path
      return (tree.putFolders location.dropLast).put location (.link target.toString)
  | .other => return tree

def readAt (tree : FileTree) (location : Location) : IO FileTree := do
  let path := (← IO.currentDir) / Path.ofLocation location
  if ← path.pathExists then readBelow tree location else return tree

def namedPaths (arguments : List String) : List String :=
  arguments.flatMap fun argument => [argument, ((Arguments.cutOption argument).2).getD ""]

def readTree (folder : String) (paths : List String) : IO FileTree := do
  let here := Path.names folder
  let mut tree ← readBelow (FileTree.mk [] here) here
  for path in paths do
    let location := locationOf folder path
    if path ≠ "" && !here.isPrefixOf location then tree ← readAt tree location
  return tree

def writeChanges (before after : FileTree) : IO Unit := do
  let folder ← IO.currentDir
  for (location, entry) in before.entries.reverse do
    if (after.find? location).isNone then
      let path := folder / Path.ofLocation location
      if entry.isFolder then IO.FS.removeDirAll path else IO.FS.removeFile path
  for (location, entry) in after.entries do
    if before.find? location ≠ some entry then
      let path := folder / Path.ofLocation location
      match entry with
      | .folder => IO.FS.createDirAll path
      | .file content _ => IO.FS.writeBinFile path content
      | .link _ => pure ()

def readEnvironment : IO (List (String × String)) := do
  match ← IO.getEnv Tool.disassemblerVariable with
  | some value => return [(Tool.disassemblerVariable, value)]
  | none => return []

def readClock : IO String := do
  let now ← Std.Time.Timestamp.now
  return Timestamp.render now.val.second.val.toNat now.val.nano.val.toNat

end BytecodeParity.Main

open BytecodeParity

def main (arguments : List String) : IO UInt32 := do
  let folder ← IO.currentDir
  let environment ← Main.readEnvironment
  let tools := environment.map (·.2)
  let tree ← Main.readTree folder.toString (Main.namedPaths arguments ++ tools)
  let (answer, changed) := Command.run environment (← Main.readClock) arguments tree
  Main.writeChanges tree changed
  IO.print answer.out
  let verbose := arguments.contains "-v" || arguments.contains "--verbose"
  for entry in answer.log do
    if verbose || entry.level ≠ .debug then IO.eprintln entry.line
  if let some complaint := answer.complaint then IO.eprintln ("Error: " ++ complaint)
  return answer.code.toUInt32
