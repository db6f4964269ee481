import Mathlib.Data.List.Basic
import Mathlib.Data.List.Range

namespace Backtrack
set_option autoImplicit true

/-- Patterns of a backtracking matcher over an arbitrary alphabet.  Every repetition is greedy. -/
inductive Pattern (α : Type u)
  | cls (p : α → Bool)
  | seq (r s : Pattern α)
  | alt (r s : Pattern α)
  | rep (r : Pattern α) (lo hi : Nat)
  | many (p : α → Bool) (lo : Nat)
  | group (k : Nat) (r : Pattern α)
  | notBehind (p : α → Bool)
  | notAhead (p : α → Bool)
  | boundary (p : α → Bool)

/-- A position in the text, with the groups closed so far (latest first). -/
structure Cursor where
  pos : Nat
  groups : List (Nat × Nat × Nat)
  deriving DecidableEq, Repr

def holdsAt (p : α → Bool) (t : List α) (i : Nat) : Bool := t[i]?.any p

def holdsBefore (p : α → Bool) (t : List α) : Nat → Bool
  | 0 => false
  | i + 1 => holdsAt p t i

def slice (t : List α) (i j : Nat) : List α := (t.take j).drop i

/-- Up to `n` rounds of `f`, more rounds first. -/
def upTo (f : β → List β) : Nat → β → List β
  | 0, c => [c]
  | n + 1, c => (f c).flatMap (upTo f n) ++ [c]

/-- `n` rounds of `f`, then `g`. -/
def rounds (f g : β → List β) : Nat → β → List β
  | 0, c => g c
  | n + 1, c => (f c).flatMap (rounds f g n)

def runLength (p : α → Bool) (t : List α) (i : Nat) : Nat := ((t.drop i).takeWhile p).length

/-- The end positions of a class repeated at least `lo` times, longest first. -/
def manyEnds (p : α → Bool) (t : List α) (lo i : Nat) : List Nat :=
  (List.range (runLength p t i + 1 - lo)).map fun k => i + runLength p t i - k

namespace Pattern

/-- All ways to match, in the order in which backtracking tries them. -/
def run (t : List α) : Pattern α → Cursor → List Cursor
  | cls p, c => if holdsAt p t c.pos then [{ c with pos := c.pos + 1 }] else []
  | seq r s, c => (run t r c).flatMap (run t s)
  | alt r s, c => run t r c ++ run t s c
  | rep r lo hi, c => rounds (run t r) (upTo (run t r) (hi - lo)) lo c
  | many p lo, c => (manyEnds p t lo c.pos).map fun j => { c with pos := j }
  | group k r, c => (run t r c).map fun d => { d with groups := (k, c.pos, d.pos) :: d.groups }
  | notBehind p, c => if holdsBefore p t c.pos then [] else [c]
  | notAhead p, c => if holdsAt p t c.pos then [] else [c]
  | boundary p, c => if holdsBefore p t c.pos = holdsAt p t c.pos then [] else [c]

/-- The positions at which a match from `i` can end, in backtracking order. -/
def ends (t : List α) : Pattern α → Nat → List Nat
  | cls p, i => if holdsAt p t i then [i + 1] else []
  | seq r s, i => (ends t r i).flatMap (ends t s)
  | alt r s, i => ends t r i ++ ends t s i
  | rep r lo hi, i => rounds (ends t r) (upTo (ends t r) (hi - lo)) lo i
  | many p lo, i => manyEnds p t lo i
  | group _ r, i => ends t r i
  | notBehind p, i => if holdsBefore p t i then [] else [i]
  | notAhead p, i => if holdsAt p t i then [] else [i]
  | boundary p, i => if holdsBefore p t i = holdsAt p t i then [] else [i]

attribute [grind =] run ends

/-- The least number of characters a match consumes. -/
def minWidth : Pattern α → Nat
  | cls _ => 1
  | seq r s => r.minWidth + s.minWidth
  | alt r s => min r.minWidth s.minWidth
  | rep r lo _ => lo * r.minWidth
  | many _ lo => lo
  | group _ r => r.minWidth
  | notBehind _ | notAhead _ | boundary _ => 0

/-- The characters a match may consume. -/
def uses : Pattern α → α → Bool
  | cls p, a | many p _, a => p a
  | seq r s, a | alt r s, a => r.uses a || s.uses a
  | rep r _ _, a | group _ r, a => r.uses a
  | notBehind _, _ | notAhead _, _ | boundary _, _ => false

/-- Patterns without assertions: whether they match a word does not depend on what is around. -/
def plain : Pattern α → Bool
  | cls _ | many _ _ => true
  | seq r s | alt r s => r.plain && s.plain
  | rep r _ _ | group _ r => r.plain
  | notBehind _ | notAhead _ | boundary _ => false

def groupless : Pattern α → Bool
  | cls _ | many _ _ | notBehind _ | notAhead _ | boundary _ => true
  | seq r s | alt r s => r.groupless && s.groupless
  | rep r _ _ => r.groupless
  | group _ _ => false

end Pattern

end Backtrack
