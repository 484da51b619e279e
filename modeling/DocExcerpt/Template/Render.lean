import DocExcerpt.Json.Value
import DocExcerpt.Template.Parser
/-!
# Rendering templates

A template is rendered over the members of a JSON object; inside a loop the loop variable and `loop` come
before them.  A name or attribute that is not there is undefined: it shows as nothing, counts as false and has
no items, but taking an attribute of it is an error.
-/
namespace DocExcerpt
namespace Template

/-- The names that an expression can use, the nearest first. -/
abbrev Scope := List (Text × Json)

def Scope.get? (scope : Scope) (name : Text) : Option Json :=
  (scope.find? (fun b => b.1 == name)).map (·.2)

/-- The attribute of a value; nothing but an object has any. -/
def member? (name : Text) : Json → Option Json
  | .object members => Scope.get? members name
  | _ => none

def length? : Json → Option Nat
  | .string t => some t.length
  | .array items => some items.length
  | .object members => some members.length
  | _ => none

def applyFilter (value? : Option Json) (name : Text) : Except TemplateError (Option Json) :=
  if name = "length".toList then
    match value?.bind length? with
    | some n => .ok (some (.number n))
    | none => .error .noLength
  else .error (.unknownFilter name)

/-- The value of an expression; none when it is undefined. -/
def Expr.value (scope : Scope) (e : Expr) : Except TemplateError (Option Json) := do
  let value? ← e.attributes.foldlM (fun value? name =>
    match value? with
    | some v => .ok (member? name v)
    | none => .error (.undefined name)) (Scope.get? scope e.name)
  e.filters.foldlM applyFilter value?

def isTrue : Option Json → Bool
  | none => false
  | some .null => false
  | some (.bool b) => b
  | some (.number n) => n != 0
  | some (.string t) => !t.isEmpty
  | some (.array items) => !items.isEmpty
  | some (.object members) => !members.isEmpty

def items : Option Json → Except TemplateError (List Json)
  | none => .ok []
  | some .null => .ok []
  | some (.array items) => .ok items
  | some (.object members) => .ok (members.map (fun m => .string m.1))
  | some (.string t) => .ok (t.map (fun c => .string [c]))
  | some (.bool _) => .error .noItems
  | some (.number _) => .error .noItems

def showChar (c : Char) : Text :=
  if c = '"' then ['\\', '"']
  else if c = '\\' then ['\\', '\\']
  else if c = '\n' then ['\\', 'n']
  else if c = '\r' then ['\\', 'r']
  else if c = '\t' then ['\\', 't']
  else if c.toNat = 0 then ['\\', '0']
  else if c.toNat < 0x20 ∨ c.toNat = 0x7F then
    ['\\', 'u', '\x7b'] ++ Nat.toDigits 16 c.toNat ++ ['\x7d']
  else [c]

def showQuoted (t : Text) : Text := '"' :: (t.flatMap showChar ++ ['"'])

mutual

def showInner : Json → Text
  | .null => "none".toList
  | .bool b => if b then "true".toList else "false".toList
  | .number n => Text.decimal n
  | .string t => showQuoted t
  | .array items => '[' :: (Text.join ", ".toList (showItems items) ++ [']'])
  | .object members =>
    '\x7b' :: (Text.join ", ".toList
      (((showMembers members).mergeSort (fun a b => Text.le a.1 b.1)).map (·.2)) ++ ['\x7d'])

def showItems : List Json → List Text
  | [] => []
  | v :: vs => showInner v :: showItems vs

def showMembers : List (Text × Json) → List (Text × Text)
  | [] => []
  | (name, v) :: ms => (name, showQuoted name ++ ": ".toList ++ showInner v) :: showMembers ms

end

/-- A value as it is inserted. -/
def insertion : Option Json → Text
  | none => []
  | some (.string t) => t
  | some v => showInner v

/-- What `loop` stands for at the given item of a loop, counted from zero. -/
def loopValue (count index : Nat) : Json :=
  .object [Json.member "index" (.number (index + 1)), Json.member "index0" (.number index),
    Json.member "first" (.bool (index == 0)), Json.member "last" (.bool (index + 1 == count)),
    Json.member "length" (.number count)]

mutual

def renderNode (scope : Scope) : Node → Except TemplateError Text
  | .text t => .ok t
  | .output e => (e.value scope).map insertion
  | .loop x whole body otherwise => do
    let all ← items (← whole.value scope)
    if all.isEmpty then renderNodes scope otherwise
    else
      let count := all.length
      let texts ← all.zipIdx.mapM (fun (item, index) =>
        renderNodes ((x, item) :: ("loop".toList, loopValue count index) :: scope) body)
      return texts.flatten
  | .branch condition body otherwise => do
    if isTrue (← condition.value scope) then renderNodes scope body else renderNodes scope otherwise

def renderNodes (scope : Scope) : List Node → Except TemplateError Text
  | [] => .ok []
  | n :: ns => do
    let t ← renderNode scope n
    let rest ← renderNodes scope ns
    return t ++ rest

end

/-- The text of a template over the members of an object. -/
def render (nodes : List Node) (members : List (Text × Json)) : Except TemplateError Text :=
  renderNodes members nodes

end Template
end DocExcerpt
