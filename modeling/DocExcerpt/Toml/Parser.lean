import DocExcerpt.Toml.Scalar
/-!
# Reading TOML

`Toml.parse` reads a document of TOML 1.0, or finds that it is none.  Values nest at most `maxDepth` deep.  The
readers of keys, values and rows give back the text that they leave, and the loops over it carry a number that
bounds the steps: the length of the text, since each step takes a character.
-/
namespace DocExcerpt
namespace Toml

/-- How deep values may nest, and how many parts a dotted key may have. -/
def maxDepth : Nat := 80

def isBareKeyChar (c : Char) : Bool := c.isAlphanum || c == '_' || c == '-'

def keyPart? : Text → Option (Text × Text)
  | '"' :: rest => basicString? rest
  | c :: rest =>
    if c = apostrophe then literalString? [] rest
    else if isBareKeyChar c then
      some ((c :: rest).takeWhile isBareKeyChar, (c :: rest).dropWhile isBareKeyChar)
    else none
  | [] => none

/-- Reads a dotted key and the blanks around it, in at most `steps` parts. -/
def keyUpTo? : Nat → Text → Option (List Text × Text)
  | 0, _ => none
  | steps + 1, t => do
    let (part, rest) ← keyPart? (skipSpace t)
    match skipSpace rest with
    | '.' :: rest =>
      let (parts, rest) ← keyUpTo? steps rest
      return (part :: parts, rest)
    | rest => return ([part], rest)

def key? (t : Text) : Option (List Text × Text) := do
  let (parts, rest) ← keyUpTo? (t.length + 1) t
  if parts.length < maxDepth then return (parts, rest) else none

/-- The text after a comment, up to the end of its line. -/
def skipComment? (t : Text) : Option Text :=
  match t.dropWhile isCommentChar with
  | [] => some []
  | rest => if (afterNewline? rest).isSome then some rest else none

/-- The text after blanks, line ends and comments, in at most `steps` of them. -/
def skipGap? : Nat → Text → Option Text
  | 0, _ => none
  | steps + 1, t =>
    match skipSpace t with
    | '#' :: rest => (skipComment? rest).bind (skipGap? steps)
    | '\n' :: rest => skipGap? steps rest
    | '\r' :: '\n' :: rest => skipGap? steps rest
    | rest => some rest

mutual

/-- Reads a value that may nest `depth` deep. -/
def value? : Nat → Nat → Text → Option (Value × Text)
  | 0, _, _ => none
  | _ + 1, 0, _ => none
  | steps + 1, depth + 1, t =>
    match t with
    | '[' :: rest => do
      let (items, rest) ← items? steps depth [] rest
      return (.array items, rest)
    | '{' :: rest =>
      match skipSpace rest with
      | '}' :: rest => some (.table .inline [], rest)
      | rest => do
        let (entries, rest) ← entries? steps depth [] rest
        return (.table .inline entries, rest)
    | t => (string? t).map (fun (s, rest) => (Value.string s, rest)) <|> scalarWord? t

/-- Reads the items of an array after those already read, latest first, and its closing bracket. -/
def items? : Nat → Nat → List Value → Text → Option (List Value × Text)
  | 0, _, _, _ => none
  | steps + 1, depth, read, t => do
    match ← skipGap? (t.length + 1) t with
    | ']' :: rest => return (read.reverse, rest)
    | t =>
      let (v, rest) ← value? steps depth t
      match ← skipGap? (rest.length + 1) rest with
      | ',' :: rest => items? steps depth (v :: read) rest
      | ']' :: rest => return ((v :: read).reverse, rest)
      | _ => none

/-- Reads the entries of a table in braces, into those already read, and its closing brace. -/
def entries? : Nat → Nat → Table → Text → Option (Table × Text)
  | 0, _, _, _ => none
  | steps + 1, depth, read, t => do
    let (keys, rest) ← key? t
    match rest with
    | '=' :: rest =>
      let (v, rest) ← value? steps depth (skipSpace rest)
      let read ← Table.assign keys v read
      match skipSpace rest with
      | ',' :: rest => entries? steps depth read rest
      | '\x7d' :: rest => return (read, rest)
      | _ => none
    | _ => none

end

/-- The text after the end of a row: blanks, a comment, and a line end or the end of the text. -/
def endRow? (t : Text) : Option Text :=
  match skipSpace t with
  | [] => some []
  | '#' :: rest => (skipComment? rest).map (fun rest => (afterNewline? rest).getD [])
  | rest => afterNewline? rest

/-- A document that has been read in part: the header of the rows that follow, and the table so far. -/
structure Draft where
  header : List Text
  table : Table

def headerRow? (doc : Draft) : Text → Option (Draft × Text)
  | '[' :: rest => do
    let (keys, rest) ← key? rest
    match rest with
    | ']' :: ']' :: rest =>
      let table ← Table.appendTable keys doc.table
      return (⟨keys, table⟩, ← endRow? rest)
    | _ => none
  | rest => do
    let (keys, rest) ← key? rest
    match rest with
    | ']' :: rest =>
      let table ← Table.defineTable keys doc.table
      return (⟨keys, table⟩, ← endRow? rest)
    | _ => none

def entryRow? (doc : Draft) (t : Text) : Option (Draft × Text) := do
  let (keys, rest) ← key? t
  match rest with
  | '=' :: rest =>
    let rest := skipSpace rest
    let (v, rest) ← value? (rest.length + 1) maxDepth rest
    let table ← Table.assignUnder doc.header keys v doc.table
    return (⟨doc.header, table⟩, ← endRow? rest)
  | _ => none

/-- Reads the rest of a document in at most `steps` rows. -/
def rows? : Nat → Draft → Text → Option Table
  | 0, _, _ => none
  | steps + 1, doc, t => do
    match ← skipGap? (t.length + 1) t with
    | [] => return doc.table
    | '[' :: rest =>
      let (doc, rest) ← headerRow? doc rest
      rows? steps doc rest
    | t =>
      let (doc, rest) ← entryRow? doc t
      rows? steps doc rest

/-- The table of a document; none when the text is no TOML.  A byte order mark at its start is passed over. -/
def parse (t : Text) : Option Table :=
  let t := (Text.after? ['\uFEFF'] t).getD t
  rows? (t.length + 1) ⟨[], []⟩ t

end Toml
end DocExcerpt
