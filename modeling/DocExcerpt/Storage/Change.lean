import DocExcerpt.Storage.Basic
/-!
# Changing storage

Making directories, writing and removing files.  An operation that is refused changes nothing, except that
`createDirectories` keeps what it made before the refusal.
-/
namespace DocExcerpt
namespace Storage

def restrict (s : Storage) (keep : List Text → Bool) : Storage where
  entries := s.entries.filter (fun e => keep e.1)
  workingDirectory := s.workingDirectory
  home := s.home
  distinct := s.distinct.sublist (List.filter_sublist.map Prod.fst)

/-- The storage with an entry under the given names, in place of any other. -/
def put (s : Storage) (names : List Text) (e : Entry) : Storage where
  entries := (s.restrict (fun old => !(old == names))).entries ++ [(names, e)]
  workingDirectory := s.workingDirectory
  home := s.home
  distinct := by
    rw [List.map_append, List.nodup_append]
    refine ⟨(s.restrict _).distinct, by simp, ?_⟩
    intro a ha b hb heq
    obtain ⟨old, hold, rfl⟩ := List.mem_map.1 ha
    have : old.1 = names := by simpa using heq.trans (List.mem_singleton.1 hb)
    simp [restrict, this] at hold

theorem get?_restrict (s : Storage) (keep : List Text → Bool) (names : List Text) (h : names ≠ []) :
    (s.restrict keep).get? names = if keep names then s.get? names else none := by
  have hne : names.isEmpty = false := by simpa using h
  simp only [get?, restrict, hne, Bool.false_eq_true, if_false, List.find?_filter]
  by_cases hk : keep names
  · simp only [hk, if_true]
    congr 2
    funext e
    by_cases he : e.1 = names <;> simp [he, hk]
  · simp only [hk]
    rw [List.find?_eq_none.2 (fun e _ => by
      by_cases he : e.1 = names <;> simp [he, hk])]
    rfl

theorem get?_put (s : Storage) (names : List Text) (e : Entry) (other : List Text) (h : other ≠ []) :
    (s.put names e).get? other = if other = names then some e else s.get? other := by
  have hr := get?_restrict s (fun old => !(old == names)) other h
  have hne : other.isEmpty = false := by simpa using h
  simp only [get?, hne, Bool.false_eq_true, if_false] at hr
  simp only [get?, put, hne, Bool.false_eq_true, if_false, List.find?_append, Option.map_or, hr]
  by_cases ho : other = names
  · simp [ho]
  · simp [ho, Ne.symm ho]

/-- A path cut before its last part, slashes at its end aside: the parts before, the last part, and whether
slashes follow. -/
def splitLastPart (p : Path) : List Text × Text × Bool :=
  match (Text.pieces '/' p.text).reverse with
  | [] => ([], [], false)
  | last :: before =>
    match (last :: before).dropWhile List.isEmpty with
    | [] => ([], [], true)
    | part :: rest => (rest.reverse, part, last.isEmpty)

/-- The names that a path to be made leads to; the directory it lies in must be there.  None when the last part
is no name of its own, so that it leads to a directory. -/
def target (s : Storage) (p : Path) : Except IoError (Option (List Text)) := do
  checkPath p
  let (before, last, _) := splitLastPart p
  let dir ← s.follow (s.origin p) (before ++ [['.']])
  if Path.isVoid last || last == ['.', '.'] then return none
  else return some (← s.follow dir [last])

def createDirectory (s : Storage) (p : Path) : Except IoError Storage := do
  match ← s.target p with
  | none => .error .alreadyExists
  | some names =>
    if (s.get? names).isSome then .error .alreadyExists else return s.put names .directory

/-- Makes a directory and, at most `depth` levels up, the missing ones it lies in.  The storage afterwards
comes with the refusal, if there is one. -/
def createDirectoriesUpTo : Nat → Storage → Path → Storage × Option IoError
  | depth, s, p =>
    if p.text.isEmpty then (s, none)
    else
      match s.createDirectory p with
      | .ok s => (s, none)
      | .error e =>
        if e = .notFound then
          match depth, p.parent? with
          | depth + 1, some dir =>
            match createDirectoriesUpTo depth s dir with
            | (s, some e) => (s, some e)
            | (s, none) =>
              match s.createDirectory p with
              | .ok s => (s, none)
              | .error e => (s, if s.isDirectory p then none else some e)
          | _, _ => (s, some e)
        else (s, if s.isDirectory p then none else some e)

def createDirectories (s : Storage) (p : Path) : Storage × Option IoError :=
  createDirectoriesUpTo (p.components.length + 1) s p

/-- Writes a file, in place of what it held before. -/
def write (s : Storage) (p : Path) (bytes : List UInt8) : Except IoError Storage := do
  match ← s.target p with
  | none => .error .isDirectory
  | some names =>
    if (splitLastPart p).2.2 then .error .isDirectory
    else
      match s.get? names with
      | some .directory => .error .isDirectory
      | _ => return s.put names (.file bytes)

/-- The storage without a file, or without a directory and all that lies in it. -/
def remove (s : Storage) (p : Path) : Storage :=
  match s.resolve p with
  | .error _ => s
  | .ok names => s.restrict (fun old => (below? names old).isNone)

end Storage
end DocExcerpt
