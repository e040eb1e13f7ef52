/-
  Regular expressions and what they match.

  A match is a stretch of the text between two places.  `Regex.ends` gives the
  places at which a match that starts at a place can end; there are no
  preferences among them, since only the existence of a match is asked for.

  * `Regex.search` finds out whether an expression matches somewhere in a text.
-/

namespace Overlap

/-! ## Characters -/

/-- Characters of some ranges of numbers, or all others. -/
structure CharRanges where
  ranges : List (Nat × Nat)
  negated : Bool := false
deriving Repr, Inhabited

/-- The characters that differ from `c` in case only. -/
def caseVariants (c : Char) : List Char :=
  let others :=
    if c == 'k' || c == 'K' then ['\u212a']
    else if c == 's' || c == 'S' then ['\u017f']
    else if c == '\u212a' then ['k', 'K']
    else if c == '\u017f' then ['s', 'S']
    else []
  [c, c.toLower, c.toUpper] ++ others

/-- Whether some ranges hold a character, in any case if `fold` is set. -/
def CharRanges.contains (s : CharRanges) (fold : Bool) (c : Char) : Bool :=
  let variants := if fold then caseVariants c else [c]
  (variants.any fun v => s.ranges.any fun (lo, hi) => lo ≤ v.toNat && v.toNat ≤ hi) != s.negated

/-- A set of characters: the union of its parts, or all others. -/
structure CharSet where
  parts : List CharRanges
  negated : Bool := false
  fold : Bool := false
deriving Repr, Inhabited

/-- Whether a set holds a character. -/
def CharSet.contains (s : CharSet) (c : Char) : Bool :=
  (s.parts.any fun p => p.contains s.fold c) != s.negated

/-! ## Expressions -/

/-- Conditions on a place in a text. -/
inductive Anchor where
  | textStart
  | textEnd
  | lineStart
  | lineEnd
  | wordBoundary
  | noWordBoundary
deriving DecidableEq, Repr

/-- Regular expressions. -/
inductive Regex where
  | empty
  | set (chars : CharSet)
  | anchor (a : Anchor)
  | seq (a b : Regex)
  | alt (a b : Regex)
  /-- At least `least` times, and at most `most` times if that is given. -/
  | rep (r : Regex) (least : Nat) (most : Option Nat)
deriving Repr, Inhabited

namespace Regex

/-- A place in a text: the character before it and the characters after it. -/
structure Place where
  previous : Option Char
  rest : List Char
deriving DecidableEq, Repr

/-- Whether a character is part of a word. -/
def isWord (c : Char) : Bool := c.isAlphanum || c == '_'

/-- Whether a word starts or ends at a place. -/
def Place.atBoundary (p : Place) : Bool := p.previous.any isWord != p.rest.head?.any isWord

/-- Whether a condition holds at a place. -/
def Place.satisfies (p : Place) : Anchor → Bool
  | .textStart => p.previous.isNone
  | .textEnd => p.rest.isEmpty
  | .lineStart => p.previous.all (· == '\n')
  | .lineEnd => p.rest.head?.all (· == '\n')
  | .wordBoundary => p.atBoundary
  | .noWordBoundary => !p.atBoundary

/-- Applies a step `n` times to a set of places. -/
def repeatSteps (step : Place → List Place) : Nat → List Place → List Place
  | 0, ps => ps
  | n + 1, ps => repeatSteps step n (ps.flatMap step).eraseDups

/-- Applies a step up to `n` times to a set of places, as long as it reaches new ones. -/
def reachSteps (step : Place → List Place) : Nat → List Place → List Place → List Place
  | 0, seen, _ => seen
  | n + 1, seen, fresh =>
    let next := ((fresh.flatMap step).eraseDups).filter fun p => !seen.contains p
    if next.isEmpty then seen else reachSteps step n (seen ++ next) next

/-- The places at which a match that starts at `p` can end. -/
def ends : Regex → Place → List Place
  | .empty, p => [p]
  | .set chars, p =>
    match p.rest with
    | c :: cs => if chars.contains c then [⟨some c, cs⟩] else []
    | [] => []
  | .anchor a, p => if p.satisfies a then [p] else []
  | .seq a b, p => ((a.ends p).flatMap b.ends).eraseDups
  | .alt a b, p => (a.ends p ++ b.ends p).eraseDups
  | .rep r least most, p =>
    let start := repeatSteps r.ends least [p]
    -- a round that reaches nothing new ends the search, so the number of places is enough
    let rounds := match most with
      | some n => n - least
      | none => p.rest.length + 1
    reachSteps r.ends rounds start start

/-- The places of a text. -/
def places (previous : Option Char) : List Char → List Place
  | [] => [⟨previous, []⟩]
  | c :: cs => ⟨previous, c :: cs⟩ :: places (some c) cs

/-- Whether an expression matches somewhere in a text. -/
def search (r : Regex) (text : String) : Bool :=
  (places none text.toList).any fun p => !(r.ends p).isEmpty

end Regex

end Overlap
