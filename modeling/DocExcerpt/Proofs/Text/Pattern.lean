import DocExcerpt.Text.Basic
/-!
# Patterns

Patterns as regular expressions write them, and what a search for one finds.  `ways` lists how a pattern can match
at a place, the preferred way first: the first alternative before the second, and of a repetition the longest run
first, or the shortest one when it is lazy.  A search (`find?`) takes the preferred way at the first place where
there is one.
-/
namespace DocExcerpt

inductive Pattern where
  /-- The start of the searched text. -/
  | start
  /-- The end of the searched text. -/
  | stop
  | char (allows : Char → Bool)
  | text (t : Text)
  | many (allows : Char → Bool) (isLazy : Bool)
  | both (first second : Pattern)
  | either (preferred other : Pattern)
  /-- A group whose text is kept. -/
  | group (p : Pattern)

namespace Pattern

/-- A way to match at a place: the text taken there, the text after it, and what the last group took. -/
structure Way where
  taken : Text
  rest : Text
  group? : Option Text
  deriving DecidableEq

/-- The ways to take allowed characters off the start of a text, the shortest first. -/
def runs (allows : Char → Bool) : Text → List (Text × Text)
  | [] => [([], [])]
  | c :: t => ([], c :: t) :: (if allows c then (runs allows t).map (fun run => (c :: run.1, run.2)) else [])

/-- The way that goes on after `first` as `second` does. -/
def Way.andThen (first second : Way) : Way :=
  ⟨first.taken ++ second.taken, second.rest, second.group? <|> first.group?⟩

/-- The ways to match at the start of `t`, the preferred one first.  `atStart` tells whether the searched text starts
there. -/
def ways : Pattern → Bool → Text → List Way
  | start, atStart, t => if atStart then [⟨[], t, none⟩] else []
  | stop, _, t => if t.isEmpty then [⟨[], [], none⟩] else []
  | char _, _, [] => []
  | char allows, _, c :: t => if allows c then [⟨[c], t, none⟩] else []
  | text word, _, t => (Text.after? word t).toList.map (fun rest => ⟨word, rest, none⟩)
  | many allows isLazy, _, t =>
    (if isLazy then runs allows t else (runs allows t).reverse).map (fun run => ⟨run.1, run.2, none⟩)
  | both first second, atStart, t =>
    (first.ways atStart t).flatMap (fun way =>
      (second.ways (atStart && way.taken.isEmpty) way.rest).map way.andThen)
  | either preferred other, atStart, t => preferred.ways atStart t ++ other.ways atStart t
  | group p, atStart, t => (p.ways atStart t).map (fun way => { way with group? := some way.taken })

/-- `find?` from a place on. -/
def findFrom? (p : Pattern) : Bool → Text → Option Way
  | atStart, [] => (p.ways atStart []).head?
  | atStart, c :: t => (p.ways atStart (c :: t)).head? <|> findFrom? p false t

def find? (p : Pattern) (t : Text) : Option Way := findFrom? p true t

variable {allows : Char → Bool} {isLazy atStart : Bool} {p q : Pattern} {t : Text} {way : Way}

theorem nil_mem_runs (t : Text) : ([], t) ∈ runs allows t := by
  cases t <;> simp [runs]

theorem cons_mem_runs_cons_iff {c d : Char} {front rest : Text} :
    (d :: front, rest) ∈ runs allows (c :: t) ↔ c = d ∧ allows c = true ∧ (front, rest) ∈ runs allows t := by
  by_cases hc : allows c = true <;> simp [runs, hc]
  grind

/-- **The runs of a text** are its starts of allowed characters. -/
theorem mem_runs_iff {front rest : Text} :
    (front, rest) ∈ runs allows t ↔ t = front ++ rest ∧ ∀ c ∈ front, allows c = true := by
  induction front generalizing t with
  | nil =>
    constructor
    · intro h
      cases t <;> simp_all [runs]
    · rintro ⟨rfl, -⟩
      exact nil_mem_runs _
  | cons d front ih =>
    cases t with
    | nil => simp [runs]
    | cons c t =>
      rw [cons_mem_runs_cons_iff, ih, List.cons_append, List.cons.injEq, List.forall_mem_cons]
      constructor
      · rintro ⟨rfl, hc, ht, hall⟩
        exact ⟨⟨rfl, ht⟩, hc, hall⟩
      · rintro ⟨⟨rfl, ht⟩, hc, hall⟩
        exact ⟨rfl, hc, ht, hall⟩

theorem mem_ways_many_iff :
    way ∈ (many allows isLazy).ways atStart t ↔
      ∃ front rest, way = ⟨front, rest, none⟩ ∧ t = front ++ rest ∧ ∀ c ∈ front, allows c = true := by
  have hmem : ∀ run, run ∈ (if isLazy then runs allows t else (runs allows t).reverse) ↔ run ∈ runs allows t := by
    intro run
    split
    · rfl
    · exact List.mem_reverse
  simp only [ways, List.mem_map, hmem, mem_runs_iff, Prod.exists]
  constructor
  · rintro ⟨front, rest, hrun, rfl⟩
    exact ⟨front, rest, rfl, hrun⟩
  · rintro ⟨front, rest, rfl, hrun⟩
    exact ⟨front, rest, hrun, rfl⟩

theorem mem_ways_both_iff :
    way ∈ (both p q).ways atStart t ↔
      ∃ first ∈ p.ways atStart t, ∃ second ∈ q.ways (atStart && first.taken.isEmpty) first.rest,
        way = first.andThen second := by
  simp only [ways, List.mem_flatMap, List.mem_map, eq_comm]

theorem mem_ways_either_iff :
    way ∈ (either p q).ways atStart t ↔ way ∈ p.ways atStart t ∨ way ∈ q.ways atStart t := by
  rw [ways, List.mem_append]

theorem mem_ways_group_iff :
    way ∈ (group p).ways atStart t ↔ ∃ inner ∈ p.ways atStart t, way = ⟨inner.taken, inner.rest, some inner.taken⟩ := by
  simp only [ways, List.mem_map, eq_comm]

theorem mem_ways_char_iff :
    way ∈ (char allows).ways atStart t ↔ ∃ c rest, t = c :: rest ∧ allows c = true ∧ way = ⟨[c], rest, none⟩ := by
  cases t with
  | nil => simp [ways]
  | cons c t =>
    rw [ways]
    constructor
    · intro h
      split at h
      · next hc => exact ⟨c, t, rfl, hc, List.mem_singleton.1 h⟩
      · cases h
    · rintro ⟨d, rest, ht, hd, rfl⟩
      obtain ⟨rfl, rfl⟩ := List.cons.inj ht
      rw [if_pos hd]
      exact List.mem_singleton_self _

theorem mem_ways_stop_iff : way ∈ stop.ways atStart t ↔ t = [] ∧ way = ⟨[], [], none⟩ := by
  cases t <;> simp [ways]

end Pattern
end DocExcerpt
