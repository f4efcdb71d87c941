import BytecodeParity.ClassRecord
import BytecodeParity.Reference

/-!
Records from disassembler output. The body of a method starts after the first line whose trimmed
text is its signature and ends before the next line that starts a member or is itself a tracked
signature. Two input styles exist: a signature listing beside the full disassembly, which keeps the
methods in listing order, and the full disassembly of a single class alone, where declarations are
told by their modifiers and the methods are sorted.
-/

set_option autoImplicit false

namespace BytecodeParity

structure MissingBody where
  version : String
  className : Option String
  signature : String
deriving DecidableEq, Repr

def MissingBody.message (missing : MissingBody) : String :=
  "Method \x60" ++ missing.signature ++ "\x60 declared for " ++ classLabel missing.className ++ " in " ++
    missing.version ++ " was not found in the disassembly"

structure Build where
  outcome : Except MissingBody ClassRecord
  unprocessed : List UnprocessedLine

namespace Disassembly

def isMemberLine (line : String) : Bool :=
  match line.toList with
  | ' ' :: ' ' :: rest => Text.startsInked (String.ofList rest)
  | _ => false

def declarationModifiers : List String := ["public final", "protected abstract"]

def isDeclaration (line : String) : Bool :=
  declarationModifiers.any fun modifiers => modifiers.toList.isPrefixOf line.toList

/-- Takes the first two characters from a line of three characters or more. -/
def stripIndent (line : String) : String :=
  if line.toList.length < 3 then line else String.ofList (line.toList.drop 2)

def isBoundary (startsMember : String → Bool) (tracked : List String) (line : String) : Bool :=
  startsMember line || tracked.contains (Text.trim line)

def body? (startsMember : String → Bool) (tracked lines : List String) (signature : String) :
    Option (List String) :=
  match lines.dropWhile fun line => Text.trim line ≠ signature with
  | [] => none
  | _ :: rest => some (rest.takeWhile fun line => !isBoundary startsMember tracked line)

/-- Builds the record of the tracked signatures. Bodies are read in the order of the signatures, and
the first signature without a body stops the reading. -/
def build (startsMember : String → Bool) (namespacePrefix version : String) (className : Option String)
    (signatures lines : List String) : Build :=
  let bodyOf := body? startsMember signatures lines
  let found := signatures.takeWhile fun signature => (bodyOf signature).isSome
  { outcome :=
      match signatures.find? fun signature => (bodyOf signature).isNone with
      | some signature => .error ⟨version, className, signature⟩
      | none => .ok (.ofMethods version className (signatures.map fun signature =>
          (signature, ((bodyOf signature).getD []).filterMap (symbolOf? namespacePrefix))))
    unprocessed := found.flatMap fun signature =>
      ((bodyOf signature).getD []).filterMap (unprocessedOf? namespacePrefix) }

def listedSignatures (listing : List String) : List String :=
  (listing.filter isMemberLine).map Text.trim

def buildListed (namespacePrefix version className : String) (listing disassembly : List String) : Build :=
  build isMemberLine namespacePrefix version (some className) (listedSignatures listing) disassembly

def declaredSignatures (lines : List String) : List String :=
  (lines.filter isDeclaration).map Text.trim

def buildSingle (namespacePrefix version : String) (disassembly : List String) : Build :=
  let lines := disassembly.map stripIndent
  let built := build Text.startsInked namespacePrefix version none (declaredSignatures lines) lines
  { built with outcome := built.outcome.map ClassRecord.sortMethods }

end Disassembly

end BytecodeParity
