import NukeLab.State

namespace NukeLab.DockerNames

open Records State

def isSeparator (c : Char) : Bool := c == '_' || c == '.' || c == '-'

def isNameChar (c : Char) : Bool := c.isLower || c.isDigit || isSeparator c

/-- The lower case of a character. Outside ASCII only these two have an ASCII
letter in it, and what the others become is no name character either. -/
def lower (c : Char) : List Char :=
  if c = '\u212a' then ['k'] else if c = '\u0130' then ['i', '\u0307'] else [c.toLower]

/-- Every run of characters a Docker name may not hold becomes one hyphen. -/
def replaceRuns : Bool → List Char → List Char
  | _, [] => []
  | inRun, c :: cs =>
    if isNameChar c then c :: replaceRuns false cs
    else if inRun then replaceRuns true cs
    else '-' :: replaceRuns true cs

def stripSeparators (cs : List Char) : List Char :=
  ((cs.dropWhile isSeparator).reverse.dropWhile isSeparator).reverse

def sanitizeComponent (value : List Char) : List Char := stripSeparators (replaceRuns false (value.flatMap lower))

def orDefault (cs : List Char) (fallback : String) : List Char := if cs = [] then fallback.toList else cs

def joinName (pre user name : List Char) (suffix : Option (List Char)) : List Char :=
  match suffix with
  | some s => pre ++ '-' :: user ++ '-' :: name ++ '-' :: s
  | none => pre ++ '-' :: user ++ '-' :: name

/-- The server name is the part that gives way when the whole is too long. -/
def makeDockerResourceName (pre userIdentifier serverName : String) (suffix : Option String) (maxLen : Nat) :
    String :=
  let safePrefix := orDefault (sanitizeComponent pre.toList) "nukelab"
  let safeUser := orDefault (sanitizeComponent userIdentifier.toList) "user"
  let safeServerName := orDefault (sanitizeComponent serverName.toList) "server"
  let safeSuffix := suffix.bind fun s =>
    let cs := sanitizeComponent s.toList
    if cs = [] then none else some cs
  let base := joinName safePrefix safeUser safeServerName safeSuffix
  let reserved := (joinName safePrefix safeUser [] safeSuffix).length
  if base.length > maxLen then
    String.ofList (joinName safePrefix safeUser (safeServerName.take (max 1 (maxLen - reserved))) safeSuffix)
  else String.ofList base

def containerName (userId : Uuid) (serverName : String) : String :=
  makeDockerResourceName "nukelab-server" (uuidText userId) serverName none 240

def dataVolumeName (userId : Uuid) (serverName suffix : String) : String :=
  makeDockerResourceName "nukelab-server" (uuidText userId) serverName (some suffix) 240

/-- Names that differ in letter case only share their Docker resources. -/
example : containerName 7 "Lab" = containerName 7 "lab" := by decide

end NukeLab.DockerNames
