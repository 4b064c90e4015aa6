import WatchGate.Text

/-!
# WatchGate: URIs

A URI is a path with a query, or an authority on its own, or a scheme with an
authority and whatever path and query follow. `Uri.parse` reads the three forms
and says what is wrong with any other text; `Uri.render` prints them. A
fragment is dropped. `http` and `https` are schemes in any case and are stored
in lower case, every other scheme is stored as it is written.

The checks of an authority are those of one pass from left to right
(`Authority.scan`), followed by those of what the pass has seen.
-/

namespace WatchGate.Http

/-- What is wrong with a URI. -/
inductive UriError
  | tooLong
  | empty
  | format
  | authority
  | character
  | schemeTooLong
  | pathStart
  deriving DecidableEq, Repr

namespace UriError

/-- The text of an error. -/
def message : UriError → String
  | .tooLong => "uri too long"
  | .empty => "empty string"
  | .format => "invalid format"
  | .authority => "invalid authority"
  | .character => "invalid uri character"
  | .schemeTooLong => "scheme too long"
  | .pathStart => "path does not start with slash"

end UriError

/-- A URI. -/
structure Uri where
  scheme : Option String
  authority : Option String
  path : String
  query : Option String
  deriving DecidableEq, Repr

/-- How many bytes a text takes. -/
def byteLength (cs : List Char) : Nat :=
  cs.foldr (fun c n => c.utf8Size + n) 0

/-- The most bytes that a URI, or its path and query, may take. -/
def maxUriBytes : Nat := 65534

/-- The most characters of a scheme. -/
def maxSchemeLength : Nat := 64

/-- Whether a character lies between two others. -/
def between (lo hi : Char) (c : Char) : Bool := lo ≤ c && c ≤ hi

/-! ## Authorities -/

namespace Authority

/-- The characters that an authority may hold, the percent sign apart. -/
def isAllowed (c : Char) : Bool :=
  (c.toNat < 0x80 && c.isAlphanum) ||
    ['!', '$', '&', '\x27', '(', ')', '*', '+', ',', '-', '.', ':', ';', '=', '@', '[', ']',
      '_', '~'].contains c

/-- The characters that end an authority. -/
def isEnd (c : Char) : Bool := c = '/' || c = '?' || c = '#'

/-- What was seen of an authority. -/
structure Seen where
  /-- colons since the last `@` or closing bracket -/
  colons : Nat
  opened : Bool
  closed : Bool
  /-- whether there is a percent sign since the last `@` or closing bracket -/
  percent : Bool
  /-- whether the last character is an `@` -/
  lastAt : Bool

/-- Before the first character. -/
def nothing : Seen := ⟨0, false, false, false, false⟩

/-- The most colons of an authority: an address of eight groups and a number behind it. -/
def maxColons : Nat := 8

/-- Takes a character into account. -/
def see (s : Seen) (c : Char) : Except UriError Seen :=
  if c = ':' then
    if maxColons ≤ s.colons then .error .authority
    else .ok { s with colons := s.colons + 1, lastAt := false }
  else if c = '[' then
    if s.percent || s.opened then .error .authority
    else .ok { s with opened := true, lastAt := false }
  else if c = ']' then
    if !s.opened || s.closed then .error .authority
    else .ok { s with closed := true, colons := 0, percent := false, lastAt := false }
  else if c = '@' then .ok { s with colons := 0, percent := false, lastAt := true }
  else if c = '%' then .ok { s with percent := true, lastAt := false }
  else if isAllowed c then .ok { s with lastAt := false }
  else .error .character

/-- Goes through an authority; the result holds it and what follows it. -/
def scan (s : Seen) : List Char → Except UriError (Seen × List Char × List Char)
  | [] => .ok (s, [], [])
  | c :: cs =>
    if isEnd c then .ok (s, [], c :: cs)
    else
      match see s c with
      | .error e => .error e
      | .ok s' =>
        match scan s' cs with
        | .error e => .error e
        | .ok (t, a, rest) => .ok (t, c :: a, rest)

/-- Whether what was seen makes an authority. -/
def accepts (s : Seen) : Bool :=
  s.opened == s.closed && s.colons ≤ 1 && !s.lastAt && !s.percent

/-- Splits a text into the authority that it starts with, and the rest. -/
def split (cs : List Char) : Except UriError (List Char × List Char) :=
  match scan nothing cs with
  | .error e => .error e
  | .ok (s, a, rest) => if accepts s then .ok (a, rest) else .error .authority

theorem scan_append {s t : Seen} {cs a rest : List Char} (h : scan s cs = .ok (t, a, rest)) :
    a ++ rest = cs := by
  induction cs generalizing s t a rest with
  | nil => simp [scan] at h; simp [h]
  | cons c cs ih =>
    unfold scan at h
    split at h
    · simp only [Except.ok.injEq, Prod.mk.injEq] at h
      obtain ⟨-, rfl, rfl⟩ := h
      rfl
    · split at h
      · simp at h
      · split at h
        · simp at h
        · next hs =>
          simp only [Except.ok.injEq, Prod.mk.injEq] at h
          obtain ⟨-, rfl, rfl⟩ := h
          simp [ih hs]

end Authority

/-! ## Paths and queries -/

/-- The characters of a path. -/
def isPathChar (c : Char) : Bool :=
  c = '!' || between '$' ';' c || c = '=' || between '@' '_' c || between 'a' 'z' c || c = '|' ||
    c = '~' || c = '\x22' || c = '\x7b' || c = '\x7d' || 0x80 ≤ c.toNat

/-- The characters of a query. -/
def isQueryChar (c : Char) : Bool :=
  c = '!' || between '$' ';' c || c = '=' || between '?' '~' c || 0x80 ≤ c.toNat

/-- Reads a query up to a fragment, which is dropped. -/
def readQuery : List Char → Except UriError (List Char)
  | [] => .ok []
  | c :: cs =>
    if c = '#' then .ok []
    else if isQueryChar c then (readQuery cs).map (c :: ·)
    else .error .character

/-- Reads a path, and the query if there is one. -/
def readPath : List Char → Except UriError (List Char × Option (List Char))
  | [] => .ok ([], none)
  | c :: cs =>
    if c = '?' then (readQuery cs).map (fun q => ([], some q))
    else if c = '#' then .ok ([], none)
    else if isPathChar c then (readPath cs).map (fun r => (c :: r.1, r.2))
    else .error .character

/-- Whether a path and query may start like this. -/
def startsPath (cs : List Char) : Bool :=
  match cs with
  | [] => true
  | ['*'] => true
  | c :: _ => c = '/' || c = '?' || c = '#'

/-- Reads a path and query. -/
def pathAndQuery (cs : List Char) : Except UriError (List Char × Option (List Char)) :=
  if maxUriBytes < byteLength cs then .error .tooLong
  else if !startsPath cs then .error .pathStart
  else readPath cs

namespace Uri

/-! ## Reading -/

/-- The characters of a scheme. -/
def isSchemeChar (c : Char) : Bool :=
  (c.toNat < 0x80 && c.isAlphanum) || c = '+' || c = '-' || c = '.' || c = '~'

/-- The scheme that a text starts with, and what follows `://`. -/
def splitScheme (cs : List Char) : Except UriError (Option (List Char × List Char)) :=
  let http := "http".toList
  let https := "https".toList
  let mark := "://".toList
  if Text.eqIgnoringCase (cs.take 7) (http ++ mark) then .ok (some (http, cs.drop 7))
  else if Text.eqIgnoringCase (cs.take 8) (https ++ mark) then .ok (some (https, cs.drop 8))
  else if byteLength cs ≤ 3 then .ok none
  else
    let name := cs.takeWhile isSchemeChar
    match Text.dropStart? mark (cs.dropWhile isSchemeChar) with
    | none => .ok none
    | some rest =>
      if maxSchemeLength < name.length then .error .schemeTooLong else .ok (some (name, rest))

/-- The URI of a path and query behind a scheme and an authority; an empty path is the root. -/
def absolute (scheme authority : String) (pq : List Char × Option (List Char)) : Uri :=
  ⟨some scheme, some authority, if pq.1.isEmpty then "/" else String.ofList pq.1,
    pq.2.map String.ofList⟩

/-- Reads a text that is not just a path. -/
def parseFull (cs : List Char) : Except UriError Uri :=
  match splitScheme cs with
  | .error e => .error e
  | .ok none =>
    match Authority.split cs with
    | .error e => .error e
    | .ok (a, rest) =>
      if rest.isEmpty then .ok ⟨none, some (String.ofList a), "", none⟩ else .error .format
  | .ok (some (scheme, behind)) =>
    if behind.isEmpty then .error .empty
    else
      match Authority.split behind with
      | .error e => .error e
      | .ok (a, rest) =>
        if a.isEmpty then .error .format
        else
          match pathAndQuery rest with
          | .error e => .error e
          | .ok pq => .ok (absolute (String.ofList scheme) (String.ofList a) pq)

/-- Reads a URI. -/
def parse (s : String) : Except UriError Uri :=
  let cs := s.toList
  if maxUriBytes < byteLength cs then .error .tooLong
  else
    match cs with
    | [] => .error .empty
    | ['/'] => .ok ⟨none, none, "/", none⟩
    | ['*'] => .ok ⟨none, none, "*", none⟩
    | [c] => if Authority.isEnd c then .error .character else parseFull [c]
    | '/' :: _ =>
      match pathAndQuery cs with
      | .error e => .error e
      | .ok pq => .ok ⟨none, none, String.ofList pq.1, pq.2.map String.ofList⟩
    | _ => parseFull cs

/-! ## Printing -/

/-- The text of a URI. -/
def render (u : Uri) : String :=
  (match u.scheme with
    | some s => s ++ "://"
    | none => "")
    ++ u.authority.getD "" ++ u.path
    ++ (match u.query with
        | some q => "?" ++ q
        | none => "")

/-- The path and the query of a URI. -/
def target (u : Uri) : String :=
  u.path ++ (match u.query with
    | some q => "?" ++ q
    | none => "")

end Uri

end WatchGate.Http
