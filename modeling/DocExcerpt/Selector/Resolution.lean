import DocExcerpt.Selector.Basic
import DocExcerpt.Sorted
/-!
# Resolving selectors

Which lines of a file of a given length a selector picks: the lines that some clause adds, or all when no
clause adds any, without those that some clause takes away.  Positions are counted in signed 64-bit words, so
a reference and a length beyond that range stand for its largest value (`LineRef.signed`, `LineRef.position`).
-/
namespace DocExcerpt

def LineRef.maxPosition : Nat := 0x7FFFFFFFFFFFFFFF

def LineRef.signed (r : LineRef) : Int :=
  let magnitude : Int := min r.magnitude LineRef.maxPosition
  if r.negative then -magnitude else magnitude

/-- The 1-based position in a file of `total` lines; it may lie outside the file. -/
def LineRef.position (r : LineRef) (total : Nat) : Int :=
  let magnitude : Int := min r.magnitude LineRef.maxPosition
  if r.negative then (min total LineRef.maxPosition : Nat) - magnitude + 1 else magnitude

/-- A reference that names no line of the file. -/
structure OutOfRange where
  line : Int
  total : Nat
  deriving DecidableEq

def OutOfRange.message (e : OutOfRange) : Text :=
  "line ".toList ++ Text.signedDecimal e.line ++ " is out of range (file has ".toList
    ++ Text.decimal e.total ++ " lines)".toList

/-- The lines from `first` to `last`, both included. -/
structure Span where
  first : Nat
  last : Nat
  deriving DecidableEq

namespace Span

def numbers (s : Span) : List Nat := List.range' s.first (s.last + 1 - s.first)

def contains (s : Span) (n : Nat) : Bool := decide (s.first ≤ n) && decide (n ≤ s.last)

theorem mem_numbers {s : Span} {n : Nat} : n ∈ s.numbers ↔ s.first ≤ n ∧ n ≤ s.last := by
  rw [numbers, List.mem_range'_1]
  omega

theorem contains_iff {s : Span} {n : Nat} : s.contains n = true ↔ n ∈ s.numbers := by
  rw [mem_numbers, contains, Bool.and_eq_true, decide_eq_true_iff, decide_eq_true_iff]

end Span

/-- The span that a reach covers in a file of `total` lines, if it covers any line.  A single line must be
there and a range must not start after the last line; an end beyond the file is cut, and bounds that cross
once their signs are resolved cover nothing. -/
def Reach.span? (reach : Reach) (total : Nat) : Except OutOfRange (Option Span) :=
  match reach with
  | .line ref =>
    let line := ref.position total
    if 1 ≤ line ∧ line ≤ total then .ok (some ⟨line.toNat, line.toNat⟩) else .error ⟨ref.signed, total⟩
  | .range first? last? =>
    let top : Int := (min total LineRef.maxPosition : Nat)
    let first := (first?.map (·.position total)).getD 1
    let last := (last?.map (·.position total)).getD top
    if top < first then .error ⟨(first?.map LineRef.signed).getD first, total⟩
    else if last < 1 ∨ last < first then .ok none
    else .ok (some ⟨(max first 1).toNat, (min last top).toNat⟩)

/-- The spans of the clauses that are excluded, or of those that are not, in order. -/
def Clause.spansOf (excluded : Bool) (resolved : List (Clause × Option Span)) : List Span :=
  resolved.filterMap (fun p => if p.1.excluded = excluded then p.2 else none)

def Span.union (spans : List Span) : List Nat :=
  sortedSet (fun a b => decide (a ≤ b)) (spans.flatMap Span.numbers)

theorem Span.mem_union {spans : List Span} {n : Nat} : n ∈ Span.union spans ↔ ∃ s ∈ spans, n ∈ s.numbers := by
  rw [Span.union, mem_sortedSet, List.mem_flatMap]

theorem Span.pairwise_union (spans : List Span) : (Span.union spans).Pairwise (· < ·) := by
  have h := pairwise_sortedSet (fun a b : Nat => decide (a ≤ b))
    (fun _ _ _ hab hbc => decide_eq_true (Nat.le_trans (of_decide_eq_true hab) (of_decide_eq_true hbc)))
    (fun a b => by simp [Nat.le_total a b])
    (fun _ _ hab hba => Nat.le_antisymm (of_decide_eq_true hab) (of_decide_eq_true hba))
    (spans.flatMap Span.numbers)
  exact h.imp (fun hab => Nat.lt_of_le_of_ne (of_decide_eq_true hab.1) hab.2)

/-- The lines that a selector picks from a file of `total` lines, ascending.  The first clause that names a
missing line decides the error. -/
def Selector.resolve (s : Selector) (total : Nat) : Except OutOfRange (List Nat) :=
  if total = 0 then .ok []
  else do
    let resolved ← s.clauses.mapM (fun c => (c.reach.span? total).map (fun span? => (c, span?)))
    let all : List Span := if s.startsFromAll then [⟨1, total⟩] else []
    let added := all ++ Clause.spansOf false resolved
    let removed := Clause.spansOf true resolved
    return (Span.union added).filter (fun n => !removed.any (·.contains n))

end DocExcerpt
