import Chip8.Random.Twister

/-!
Sources of random values. A source is either a given sequence of integers or a seeded generator of
bytes; drawing takes its first value and leaves the rest.
-/

namespace Chip8

inductive RandomSource where
  /-- The values of a sequence from a place on. -/
  | sequence (value : Nat → Int) (place : Nat)
  /-- The bytes of a generator. -/
  | generator (g : Twister)

namespace RandomSource

/-- The source that gives the values of a list and then zero for ever. -/
def ofList (values : List Int) : RandomSource := .sequence (fun k => values.getD k 0) 0

/-- The source that a seed determines. -/
def ofSeed (seed : Int) : RandomSource := .generator (Twister.ofSeed seed)

def draw : RandomSource → Int × RandomSource
  | .sequence value place => (value place, .sequence value (place + 1))
  | .generator g =>
    match g.nextByte with
    | (b, g) => (b.toNat, .generator g)

def after : Nat → RandomSource → RandomSource
  | 0, s => s
  | n + 1, s => after n s.draw.2

/-- The value of draw number `n`, counted from 0. -/
def value (s : RandomSource) (n : Nat) : Int := (s.after n).draw.1

def take : Nat → RandomSource → List Int
  | 0, _ => []
  | n + 1, s =>
    match s.draw with
    | (v, s) => v :: take n s

end RandomSource

end Chip8
