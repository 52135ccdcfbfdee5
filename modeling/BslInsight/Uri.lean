import BslInsight.Path
import BslInsight.Uri.Host

/-!
# Addresses of documents

Reading an address brings it into its normal form: the scheme in lower case, no dot segments,
reserved characters percent-encoded.
-/

namespace BslInsight

structure Authority where
  user : String := ""
  host : String := ""
  portNumber? : Option Nat := none
deriving DecidableEq, Repr

structure Uri where
  scheme : String
  authority? : Option Authority
  path : String
  query? : Option String := none
  fragment? : Option String := none
deriving DecidableEq, Repr

namespace Authority

def text (authority : Authority) : String :=
  authority.user ++ authority.host ++
    match authority.portNumber? with
    | some number => s!":{number}"
    | none => ""

end Authority

namespace Uri

/-- The address as written.  Without an authority a path must not begin with two slashes, so that a
dot segment is put before it. -/
def text (uri : Uri) : String :=
  uri.scheme ++ ":" ++
    (match uri.authority? with
      | some authority => "//" ++ authority.text
      | none => if ['/', '/'].isPrefixOf uri.path.toList then "/." else "") ++
    uri.path ++
    (match uri.query? with
      | some query => "?" ++ query
      | none => "") ++
    match uri.fragment? with
    | some fragment => "#" ++ fragment
    | none => ""

def webPorts : List (String × Nat) :=
  [("http", 80), ("https", 443), ("ws", 80), ("wss", 443), ("ftp", 21)]

def isWeb (scheme : String) : Bool :=
  (webPorts.lookup scheme).isSome

def isSpecial (scheme : String) : Bool :=
  scheme == "file" || isWeb scheme

def isSlash (special : Bool) (c : Char) : Bool :=
  c == '/' || (special && c == '\\')

def isSingleDot (segment : List Char) : Bool :=
  [".", "%2e"].contains (String.ofList (segment.map Char.toLower))

def isDoubleDot (segment : List Char) : Bool :=
  ["..", ".%2e", "%2e.", "%2e%2e"].contains (String.ofList (segment.map Char.toLower))

def driveLetter? : List Char → Option Char
  | [letter, mark] => if letter.isAlpha && (mark == ':' || mark == '|') then some letter else none
  | _ => none

def beginsWithDrive (segment : List Char) : Bool :=
  (driveLetter? (segment.takeWhile (· != '\\'))).isSome

structure PathState where
  segments : List (List Char) := []
  hasDrive : Bool := false

namespace PathState

def shorten (path : PathState) : PathState :=
  match path.segments.getLast? with
  | some segment =>
    if beginsWithDrive segment then path else { path with segments := path.segments.dropLast }
  | none => path

/-- The path with one more segment; `last` says that none follows.  The drive of a file is written
with a colon. -/
def add (scheme : String) (last : Bool) (path : PathState) (segment : List Char) : PathState :=
  let closed := fun (path : PathState) =>
    if last then { path with segments := path.segments ++ [[]] } else path
  if isDoubleDot segment then closed path.shorten
  else if isSingleDot segment then closed path
  else
    match if scheme == "file" && path.segments.isEmpty then driveLetter? segment else none with
    | some letter => { segments := [[letter, ':']], hasDrive := true }
    | none =>
      { path with segments := path.segments ++ [Percent.encode Percent.inPath segment] }

end PathState

def splitSlashes (special : Bool) (text : List Char) : List (List Char) :=
  splitOn '/' (text.map fun c => if isSlash special c then '/' else c)

def readPath (scheme : String) (text : List Char) : PathState :=
  let pieces := splitSlashes (isSpecial scheme) text
  let before := pieces.dropLast.foldl (PathState.add scheme false) {}
  before.add scheme true (pieces.getLast?.getD [])

def pathText (scheme : String) (path : PathState) : List Char :=
  let joined := joinWith ['/'] path.segments
  if scheme == "file" then '/' :: joined.dropWhile (· == '/') else '/' :: joined

def authorityPath (scheme : String) (text : List Char) : List Char :=
  match text with
  | [] => if isSpecial scheme then ['/'] else []
  | c :: rest =>
    pathText scheme (readPath scheme (if isSlash (isSpecial scheme) c then rest else c :: rest))

/-- The name and the password of a user with the sign that ends them, and what follows it;
`isWhole` says that nothing comes after the text. -/
def userInfo? (isWhole : Bool) (text : List Char) : Option (List Char × List Char) :=
  if text.contains '@' then
    let rest := (text.reverse.takeWhile (· != '@')).reverse
    let info := text.take (text.length - rest.length - 1)
    let name := info.takeWhile (· != ':')
    let password := info.drop (name.length + 1)
    let written := Percent.encode Percent.inUser name ++
      if password.isEmpty then [] else ':' :: Percent.encode Percent.inUser password
    if info.isEmpty && rest.isEmpty && !isWhole then none
    else some (if written.isEmpty then [] else written ++ ['@'], rest)
  else some ([], text)

/-- The port number after its colon, and what follows it.  Only a backslash can follow within an
authority. -/
def portNumber? (text : List Char) : Option (Option Nat × List Char) :=
  let digits := text.takeWhile Char.isDigit
  let value := digits.foldl (fun n c => n * 10 + (c.toNat - '0'.toNat)) 0
  let rest := text.drop digits.length
  if value < 65536 ∧ (rest.isEmpty ∨ rest.head? = some '\\') then
    some (if digits.isEmpty then none else some value, rest)
  else none

/-- The authority of a scheme other than that of files, and what follows it before a slash;
`isWhole` says that nothing comes after the text.  Only where hosts may be any text, the host may be
empty, and then there is neither a user nor a port number. -/
def readAuthority? (scheme : String) (isWhole : Bool) (text : List Char) :
    Option (Authority × List Char) := do
  let (user, rest) ← userInfo? isWhole text
  let (hostText, rest) := Host.split false rest
  let host ← Host.read? (isSpecial scheme) hostText
  if host.isEmpty && (isSpecial scheme || !user.isEmpty || !rest.isEmpty) then none
  let (number?, rest) ← match rest with
    | ':' :: rest => portNumber? rest
    | _ => some (none, rest)
  let portNumber? := if number? == webPorts.lookup scheme then none else number?
  return ({ user := String.ofList user, host, portNumber? }, rest)

/-- An address of a file after the colon: its authority and its path.  A drive in place of the host
belongs to the path, and a host before a drive is dropped. -/
def file? (text : List Char) : Option (Authority × List Char) := do
  match text with
  | a :: rest =>
    if isSlash true a then
      match rest with
      | b :: rest =>
        if isSlash true b then
          let hostText := rest.takeWhile (!isSlash true ·)
          let after := rest.dropWhile (!isSlash true ·)
          if (driveLetter? hostText).isSome then
            return ({}, pathText "file" (readPath "file" rest))
          else if hostText.isEmpty then return ({}, pathText "file" (readPath "file" after))
          else
            let host ← Host.read? true hostText
            if host == "localhost" then return ({}, pathText "file" (readPath "file" after))
            else
              let path := readPath "file" (after.drop 1)
              return ({ host := if path.hasDrive then "" else host }, pathText "file" path)
        else return ({}, pathText "file" (readPath "file" (b :: rest)))
      | [] => return ({}, ['/'])
    else return ({}, pathText "file" (readPath "file" text))
  | [] => return ({}, ['/'])

/-- The authority and the path of an address, given what stands after the colon of the scheme;
`isWhole` says that neither a query nor a fragment follows. -/
def hierarchy? (scheme : String) (isWhole : Bool) (text : List Char) :
    Option (Option Authority × List Char) := do
  if scheme == "file" then
    let (authority, path) ← file? text
    return (some authority, path)
  else
    let afterAuthority := fun (rest : List Char) => do
      let front := rest.takeWhile (!isSlash (isSpecial scheme) ·)
      let path := rest.drop front.length
      let (authority, left) ← readAuthority? scheme (isWhole && path.isEmpty) front
      return (some authority, authorityPath scheme (left ++ path))
    if isWeb scheme then afterAuthority (text.dropWhile (isSlash true))
    else
      match text with
      | '/' :: '/' :: rest => afterAuthority rest
      | '/' :: rest => return (none, pathText scheme (readPath scheme rest))
      | _ => return (none, Percent.encode Percent.inControls text)

def clean (text : List Char) : List Char :=
  let isOuter := fun (c : Char) => c.toNat ≤ 0x20
  let inner := ((text.dropWhile isOuter).reverse.dropWhile isOuter).reverse
  inner.filter fun c => c != '\t' && c != '\n' && c != '\r'

def scheme? (text : List Char) : Option (String × List Char) := do
  let isSchemeChar := fun (c : Char) => c.isAlphanum || "+-.".toList.contains c
  let scheme := text.takeWhile isSchemeChar
  match scheme, text.dropWhile isSchemeChar with
  | first :: _, ':' :: rest =>
    if first.isAlpha then some (String.ofList (scheme.map Char.toLower), rest) else none
  | _, _ => none

def ofText? (text : String) : Option Uri := do
  let (scheme, rest) ← scheme? (clean text.toList)
  let beforeFragment := rest.takeWhile (· != '#')
  let hierarchy := beforeFragment.takeWhile (· != '?')
  let (authority?, path) ← hierarchy? scheme (hierarchy.length == rest.length) hierarchy
  let query := beforeFragment.drop (hierarchy.length + 1)
  let query? := if beforeFragment.contains '?' then
      some (String.ofList (Percent.encode (Percent.inQuery (isSpecial scheme)) query))
    else none
  let fragment := rest.drop (beforeFragment.length + 1)
  let fragment? := if rest.contains '#' then
      some (String.ofList (Percent.encode Percent.inFragment fragment))
    else none
  return { scheme, authority?, path := String.ofList path, query?, fragment? }

def isLocal (uri : Uri) : Bool :=
  match uri.authority? with
  | none => true
  | some authority => authority.host == "" || authority.host == "localhost"

def closeDrive (path : List UInt8) : List UInt8 :=
  match path.reverse with
  | mark :: letter :: _ :: _ =>
    if (driveLetter? [Char.ofNat letter.toNat, Char.ofNat mark.toNat]).isSome then
      path ++ [slashByte]
    else path
  | _ => path

def filePath? (uri : Uri) : Option Path :=
  if uri.isLocal && uri.path.toList.head? == some '/' then
    some ⟨closeDrive (Percent.decode uri.path.toList)⟩
  else none

def ofPath? (path : Path) : Option Uri :=
  match path.components with
  | .root :: names =>
    let segments := names.map fun component =>
      Percent.encodeBytes Percent.inSegment component.bytes
    some { scheme := "file", authority? := some {},
           path := String.ofList ('/' :: joinWith ['/'] segments) }
  | _ => none

end Uri

end BslInsight
