import DiceFormula.Roller

/-!
# A seeded roller

A generator of pseudorandom numbers with 64 bits of state: the state is
advanced by a constant, and a number is the fold of a 128-bit product of the
state with a masked copy of itself.

A number is brought into an interval of `n` values by multiplying it with `n`
and keeping the upper half. The lower half tells whether the number belongs to
a surplus that would make some values likelier than others, and then the next
number is taken instead.
-/

namespace DiceFormula.Roller

namespace Seeded

/-- What the state is advanced by. It is odd, so that all states occur. -/
def step : UInt64 := 0x2d358dccaa6c78a5

/-- How many states there are. -/
def states : Nat := 0x10000000000000000

/-- What the copy of the state is masked with. -/
def mask : UInt64 := 0x8bb84b93962eacc9

/-- The number of a state. -/
def mix (state : UInt64) : UInt64 :=
  let product := state.toNat * (state ^^^ mask).toNat
  UInt64.ofNat product ^^^ UInt64.ofNat (product / 0x10000000000000000)

/-- The lower half of the number of a state. -/
def word (state : UInt64) : UInt32 := (mix state).toUInt32

/-- The number of values that fall to the surplus when `2 ^ 32` numbers are
spread over `n` values. -/
def surplus (n : Nat) : Nat := (0x100000000 - n) % n

/-- A number below `n` and the next state, of which at most `turns` are
passed over. -/
def below (n : Nat) (state : UInt64) : (turns : Nat) → Nat × UInt64
  | 0 => (0, state)
  | turns + 1 =>
    let next := state + step
    let product := (word next).toNat * n
    if product % 0x100000000 < surplus n then below n next turns
    else (product / 0x100000000, next)

end Seeded

/-- Gives pseudorandom values of the interval. Its states are the seed and
what the generator makes of it; since all of them occur in turn, no more of
them than there are can be passed over. -/
def seeded : Roller UInt64 where
  draw state lo hi :=
    if hi < lo then .error (.emptyRange lo hi)
    else if lo = Int32.minValue ∧ hi = Int32.maxValue then
      let next := state + Seeded.step
      .ok ((Seeded.word next).toInt32, next)
    else
      let n := (hi.toInt - lo.toInt + 1).toNat
      let answer := Seeded.below n state Seeded.states
      .ok (Int32.ofInt (lo.toInt + answer.1), answer.2)

end DiceFormula.Roller
