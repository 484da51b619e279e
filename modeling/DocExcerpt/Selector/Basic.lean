import DocExcerpt.Text.Digit
/-!
# Selectors

A selector picks lines of a file: a list of clauses, each covering one line or a range, each either adding
lines or taking them away.  A line is named by its distance from the start or, with a minus sign, from the end.
-/
namespace DocExcerpt

/-- A line as an author writes it: `7` is the seventh line, `-1` the last one. -/
structure LineRef where
  magnitude : Nat
  negative : Bool
  magnitude_pos : 0 < magnitude
  deriving DecidableEq

/-- What a clause covers.  A missing end of a range is open. -/
inductive Reach where
  | line (ref : LineRef)
  | range (first? last? : Option LineRef)
  deriving DecidableEq

def Reach.refs : Reach → List LineRef
  | .line ref => [ref]
  | .range first? last? => first?.toList ++ last?.toList

/-- One clause of a selector; an excluded clause takes its lines away. -/
structure Clause where
  excluded : Bool
  reach : Reach
  deriving DecidableEq

def Clause.countsFromEnd (c : Clause) : Bool := c.reach.refs.any (·.negative)

/-- A selector is its clauses in order.  None at all stands for the whole file. -/
structure Selector where
  clauses : List Clause
  deriving DecidableEq

namespace Selector

def countsFromEnd (s : Selector) : Bool := s.clauses.any Clause.countsFromEnd

def hasExclusions (s : Selector) : Bool := s.clauses.any Clause.excluded

def isEmpty (s : Selector) : Bool := s.clauses.isEmpty

/-- Whether the clauses only take away, so that every line is there to begin with. -/
def startsFromAll (s : Selector) : Bool := s.clauses.all Clause.excluded

end Selector

inductive RefPlace where
  | lineNumber
  | rangeStart
  | rangeEnd
  deriving DecidableEq

def RefPlace.name : RefPlace → Text
  | .lineNumber => "line number".toList
  | .rangeStart => "range start".toList
  | .rangeEnd => "range end".toList

inductive SelectorError where
  | zero (place : RefPlace)
  | notNumber (place : RefPlace) (token : Text)
  | inverted (first last : Nat)
  | dashRange (written suggestion : Text)
  deriving DecidableEq

def SelectorError.message : SelectorError → Text
  | .zero place => place.name ++ " must be positive or negative, not zero".toList
  | .notNumber place token => "invalid ".toList ++ place.name ++ ": '".toList ++ token ++ "'".toList
  | .inverted first last =>
    "invalid range '".toList ++ Text.decimal first ++ ":".toList ++ Text.decimal last
      ++ "': start must not be greater than end".toList
  | .dashRange written suggestion =>
    "BREAKING CHANGE: the dash syntax '".toList ++ written
      ++ "' is no longer supported in v3.0.0+; use colon syntax instead: '".toList ++ suggestion ++ "'".toList

end DocExcerpt
