import TapeRunner.Text.Quoted

/-!
# Addresses

Where a request goes. An address may be a whole one, with a scheme and a host, or be given relative
to the root of the service; only its path counts. Segments of dots are resolved before anything
else, and characters written as `%` and two hexadecimal digits are decoded twice, once by the
sender and once by the receiver.
-/

set_option autoImplicit false
set_option relaxedAutoImplicit false

namespace TapeRunner.Service

/-- Why an address cannot be used. -/
inductive AddressFault
  | tooLong
  | control (character : Char) (position : Nat)
  | doubleSlash
  | colon
deriving DecidableEq

/-- The text of an address's fault. -/
def AddressFault.message : AddressFault → String
  | .tooLong => "URL too long"
  | .control character position =>
    "Invalid non-printable ASCII character in URL, " ++ Text.quote (String.singleton character) ++
      " at position " ++ toString position ++ "."
  | .doubleSlash => "Relative URLs cannot have a path starting with '//'"
  | .colon => "Relative URLs cannot have a path starting with ':'"

namespace Address

/-! ### Parts -/

/-- A control character of ASCII. -/
def isControl (character : Char) : Bool := character.toNat < 32 || character.toNat = 127

/-- A character that may stand in a scheme. -/
def isSchemeCharacter (character : Char) : Bool :=
  character.isAlphanum || character = '+' || character = '.' || character = '-'

/-- Splits off a scheme, without its colon. A scheme begins with a letter or is empty. -/
def splitScheme (characters : List Char) : List Char × List Char :=
  let scheme := characters.takeWhile isSchemeCharacter
  match characters.dropWhile isSchemeCharacter with
  | ':' :: rest =>
    if (scheme.head?.map Char.isAlpha).getD true then (scheme, rest) else ([], characters)
  | _ => ([], characters)

/-- A character that ends the name of a host. -/
def endsAuthority (character : Char) : Bool :=
  character = '/' || character = '?' || character = '#'

/-- Splits off what stands behind two slashes. -/
def splitAuthority : List Char → List Char × List Char
  | '/' :: '/' :: rest => (rest.takeWhile (!endsAuthority ·), rest.dropWhile (!endsAuthority ·))
  | characters => ([], characters)

/-- The host in an authority, behind the last `@` and before the next colon. -/
def hostOf (authority : List Char) : List Char :=
  (authority.reverse.takeWhile (· ≠ '@')).reverse.takeWhile (· ≠ ':')

/-! ### Paths -/

/-- Resolves the segments of dots: one dot stands for nothing, and two dots take back the segment
before them, if there is one. -/
def withoutDots (path : String) : String :=
  let step (kept : List String) (segment : String) : List String :=
    if segment = "." then kept
    else if segment = ".." then (if kept = [""] then kept else kept.dropLast)
    else kept ++ [segment]
  String.intercalate "/" ((path.splitOn "/").foldl step [])

/-- The value of a hexadecimal digit. -/
def digitValue? (character : Char) : Option Nat :=
  if character.isDigit then some (character.toNat - 48)
  else if 'a' ≤ character ∧ character ≤ 'f' then some (character.toNat - 87)
  else if 'A' ≤ character ∧ character ≤ 'F' then some (character.toNat - 55)
  else none

/-- Decodes the characters of ASCII that are written by number. A greater number is part of a
character that no route has, and stays. -/
def decode : List Char → List Char
  | '%' :: first :: second :: rest =>
    match digitValue? first, digitValue? second with
    | some high, some low =>
      if 16 * high + low < 128 then Char.ofNat (16 * high + low) :: decode rest
      else '%' :: decode (first :: second :: rest)
    | _, _ => '%' :: decode (first :: second :: rest)
  | character :: rest => character :: decode rest
  | [] => []

/-- The most characters of an address. -/
def mostCharacters : Nat := 65536

/-- Why the characters of an address cannot be used, whatever they spell. -/
def flaw? (characters : List Char) : Option AddressFault :=
  if mostCharacters < characters.length then some .tooLong
  else (characters.findIdx? isControl).map fun position ↦
    .control (characters.getD position ' ') position

/-- The path that an address leads to. A relative path is taken from the root, however many slashes
it begins with. -/
def path (address : String) : Except AddressFault String :=
  let characters := address.toList
  match flaw? characters with
  | some fault => .error fault
  | none =>
    let (scheme, rest) := splitScheme characters
    let (authority, rest) := splitAuthority rest
    let written := rest.takeWhile fun mark ↦ mark ≠ '?' && mark ≠ '#'
    let isAnchored := !scheme.isEmpty || authority.any fun mark ↦ mark ≠ '@' && mark ≠ ':'
    let isWhole := !scheme.isEmpty && !(hostOf authority).isEmpty
    if !isAnchored && written.take 2 = ['/', '/'] then .error .doubleSlash
    else if !isAnchored && written.head? = some ':' then .error .colon
    else
      let given := String.ofList written
      let first := if isAnchored then withoutDots given else given
      let rooted :=
        if isWhole then first else "/" ++ String.ofList (first.toList.dropWhile (· = '/'))
      let resolved := withoutDots rooted
      .ok (if resolved = "" then "/" else String.ofList (decode (decode resolved.toList)))

end Address

end TapeRunner.Service
