import HintServer.Uri.Authority
import HintServer.Uri.Path

/-! Addresses of documents in normal form.
Two spellings of one address have the same normal form: scheme and host in lower case, the
default port dropped, dot segments resolved and special characters percent-encoded.
-/

namespace HintServer

/-- The address of a document, by its normal form. -/
structure Uri where
  text : String
deriving DecidableEq, Hashable, Repr

namespace Uri

/-- The characters of an address: blank space around it and line breaks in it do not count. -/
def trim (chars : List Char) : List Char :=
  let isOuter (char : Char) : Bool := char ≤ ' '
  let inner := ((chars.dropWhile isOuter).reverse.dropWhile isOuter).reverse
  inner.filter (fun char => char != '\t' && char != '\n' && char != '\r')

/-- The scheme, in lower case, and what follows its colon. -/
def splitScheme? (chars : List Char) : Option (List Char × List Char) :=
  let isSchemeChar (char : Char) : Bool := char.isAlphanum || ['+', '-', '.'].contains char
  match chars.takeWhile isSchemeChar, chars.dropWhile isSchemeChar with
  | first :: rest, ':' :: tail =>
      if first.isAlpha then some ((first :: rest).map Char.toLower, tail) else none
  | _, _ => none

/-- The schemes whose addresses name a server and a path on it. -/
def isServerScheme (scheme : List Char) : Bool :=
  (Authority.defaultPort? scheme).isSome

/-- Both slashes separate the parts of a special address. -/
def isSlash (char : Char) : Bool :=
  char == '/' || char == '\\'

/-- A server's address: any number of slashes, the authority and a path. -/
def normalizeServer? (scheme chars : List Char) : Option (List Char) :=
  let body := chars.dropWhile isSlash
  let (authority, path) := Text.cutFirst isSlash body
  (Authority.normalize? true scheme authority).map fun authority =>
    ['/', '/'] ++ authority ++ Path.renderRooted (Path.segments true false (path.getD []))

/-- A file's path in normal form: it is rooted and does not begin with an empty segment. -/
def filePath (chars : List Char) : List (List Char) :=
  (Path.segments true true chars).dropWhile List.isEmpty

/-- A file's host in normal form; the local host is no host. -/
def fileHost? (host : List Char) : Option (List Char) :=
  if host.isEmpty then some []
  else
    (Host.special? host).map fun host =>
      if host = ['l', 'o', 'c', 'a', 'l', 'h', 'o', 's', 't'] then [] else host

/-- Tells whether a path begins with a drive letter. -/
def startsWithDrive (segments : List (List Char)) : Bool :=
  match segments with
  | segment :: _ => Path.isDrive segment
  | [] => false

/-- A file's address. A host may follow two slashes; a drive letter is the start of the path,
and a path that begins with one has no host.
-/
def normalizeFile? (chars : List Char) : Option (List Char) :=
  match chars with
  | first :: second :: rest =>
      if isSlash first ∧ isSlash second then
        let (host, path) := Text.cutFirst isSlash rest
        if Path.isDrive host then some (['/', '/'] ++ Path.renderRooted (filePath rest))
        else
          (fileHost? host).map fun host =>
            let resolved := Path.segments true true (path.getD [])
            let host := if startsWithDrive resolved then [] else host
            ['/', '/'] ++ host ++ Path.renderRooted (resolved.dropWhile List.isEmpty)
      else if isSlash first then
        some (['/', '/'] ++ Path.renderRooted (filePath (second :: rest)))
      else some (['/', '/'] ++ Path.renderRooted (filePath chars))
  | _ => some (['/', '/'] ++ Path.renderRooted (filePath (chars.dropWhile isSlash)))

/-- An address of another scheme: with an authority after two slashes, with a path after one,
and otherwise as it stands. A path that begins with an empty segment is set off from an
authority.
-/
def normalizePlain? (scheme chars : List Char) : Option (List Char) :=
  match chars with
  | '/' :: '/' :: rest =>
      let (authority, path) := Text.cutFirst (· == '/') rest
      (Authority.normalize? false scheme authority).map fun authority =>
        ['/', '/'] ++ authority
          ++ (path.map fun path => Path.render (Path.segments false false path)).getD []
  | '/' :: rest =>
      let path := Path.renderRooted (Path.segments false false rest)
      some (if path.take 2 = ['/', '/'] then ['/', '.'] ++ path else path)
  | chars => some (Percent.encode Percent.inControls chars)

/-- The normal form of an address: the scheme decides how its hierarchical part is read. -/
def normalize? (chars : List Char) : Option (List Char) :=
  let (body, fragment) := Text.cutFirst (· == '#') (trim chars)
  let (body, query) := Text.cutFirst (· == '?') body
  match splitScheme? body with
  | none => none
  | some (scheme, rest) =>
      let file := scheme == ['f', 'i', 'l', 'e']
      let special := file || isServerScheme scheme
      let hierarchy? :=
        if file then normalizeFile? rest
        else if special then normalizeServer? scheme rest
        else normalizePlain? scheme rest
      hierarchy?.map fun hierarchy =>
        scheme ++ ':' :: hierarchy
          ++ (query.map fun query =>
              '?' :: Percent.encode (Percent.inQuery special) query).getD []
          ++ (fragment.map fun fragment =>
              '#' :: Percent.encode Percent.inFragment fragment).getD []

/-- Reads an address; it needs a scheme, and a server's address needs a host. -/
def ofString? (text : String) : Option Uri :=
  (normalize? text.toList).map fun chars => { text := String.ofList chars }

end Uri

end HintServer
