import DocExcerpt.Ignore.Level
/-!
# Rules for every repository

A user of git can have a file of rules that hold in every repository.  A settings file names it as `excludesFile`;
where none does, it has its place beside them.  The rules see an entry by its path from the working directory.
-/
namespace DocExcerpt

structure GlobalRules where
  rules : List IgnoreRule
  /-- The directory whose entries the rules see by their names from there. -/
  directory : Text

namespace GlobalRules

/-! ## Settings files -/

/-- A settings file is searched byte by byte; a byte stands here as the character with its number. -/
def characters (bytes : List UInt8) : Text := bytes.map (fun b => Char.ofNat b.toNat)

def isBlank (c : Char) : Bool := c == ' ' || (9 ≤ c.toNat && c.toNat ≤ 13)

def afterBlanks (t : Text) : Text := t.dropWhile isBlank

/-- Whether no more than blanks stand before the end of a line. -/
def endsLine (t : Text) : Bool := (t.takeWhile isBlank).contains '\n' || (afterBlanks t).isEmpty

/-- Whether a value can end here, with the line or with a quote before its end. -/
def endsValue (t : Text) : Bool :=
  endsLine t || match afterBlanks t with
    | '"' :: rest => endsLine rest
    | _ => false

/-- The shortest start without blanks that a value can end after. -/
def value? : Text → Option Text
  | [] => none
  | c :: rest =>
    if isBlank c then none
    else if endsValue rest then some [c]
    else (value? rest).map (c :: ·)

def key : Text := "excludesfile".toList

/-- What a text sets the path to, when it begins with a setting of it. -/
def setting? (t : Text) : Option Text :=
  let t := afterBlanks t
  if Text.asciiLower (t.take key.length) = key then
    match afterBlanks (t.drop key.length) with
    | '=' :: rest =>
      match afterBlanks rest with
      | '"' :: quoted => value? (afterBlanks quoted) <|> value? ('"' :: quoted)
      | plain => value? plain
    | _ => none
  else none

/-- The first setting at the start of a line; `atStart` says whether the text begins there. -/
def firstSetting? : (atStart : Bool) → Text → Option Text
  | _, [] => none
  | atStart, c :: rest => (if atStart then setting? (c :: rest) else none) <|> firstSetting? (c == '\n') rest

/-- The path that a settings file gives, with the user's directory for each `~` in it. -/
def pathIn? (home : Home) (bytes : List UInt8) : Option Path := do
  let value ← firstSetting? true (characters bytes)
  let t ← (Utf8.decode (value.map (fun c => UInt8.ofNat c.toNat))).toOption
  let directory := (home.directory?.map (·.text)).getD ['~']
  return ⟨t.flatMap (fun c => if c = '~' then directory else [c])⟩

def settingsFiles (home : Home) : List Path :=
  (home.directory?.map (·.join ⟨".gitconfig".toList⟩)).toList
    ++ (home.settings?.map (·.join ⟨"git/config".toList⟩)).toList

/-! ## The rules -/

/-- The path of the file with the rules.  The file need not be there. -/
def path? (s : Storage) : Option Path :=
  (settingsFiles s.home).findSome? (fun p => (s.read p).toOption.bind (pathIn? s.home))
    <|> s.home.settings?.map (·.join ⟨"git/ignore".toList⟩)

def ofStorage (s : Storage) : GlobalRules where
  rules := (((path? s).bind (fun p => (s.read p).toOption)).map
    (fun bytes => IgnoreRule.parseFile (IgnoreLevel.readablePart bytes))).getD []
  directory := s.workingPath.text

/-- A path as the rules see it. -/
def seen (g : GlobalRules) (path : Path) : Text :=
  let bare (t : Text) : Text := (Text.after? ['.', '/'] t).getD t
  let t := bare (bare path.text)
  if t.contains '/' then
    match Text.after? g.directory t with
    | some rest => (Text.after? ['/'] rest).getD rest
    | none => t
  else t

/-- What the rules say of an entry. -/
def decide? (g : GlobalRules) (path : Path) (isDirectory : Bool) : Option Verdict :=
  IgnoreRule.decide? g.rules (g.seen path) isDirectory

end GlobalRules
end DocExcerpt
