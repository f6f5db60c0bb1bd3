import Chip8.Fault

/-!
The keypad: sixteen keys, each up or down. A key number outside 0 to 15 is a fault and changes
nothing.
-/

namespace Chip8

/-- The state of the sixteen keys: `true` is down. -/
structure Keypad where
  down : Vector Bool 16
  deriving DecidableEq

namespace Keypad

def released : Keypad := ⟨Vector.replicate 16 false⟩

/-- A key number in range is a number below sixteen. -/
theorem keyNumber_lt {k : Int} (h : 0 ≤ k ∧ k < 16) : k.toNat < 16 := by
  omega

/-- The key with a number. -/
def key? (k : Int) : Except Fault (Fin 16) :=
  if h : 0 ≤ k ∧ k < 16 then .ok ⟨k.toNat, keyNumber_lt h⟩ else .error (.badKey k)

/-- Every key has its place on the keypad. -/
theorem key_lt (k : Fin 16) : k.val < 16 := k.isLt

def isDown (p : Keypad) (k : Fin 16) : Bool := p.down.get k

def put (p : Keypad) (k : Fin 16) (isDown : Bool) : Keypad := ⟨p.down.set k.val isDown (key_lt k)⟩

def press? (p : Keypad) (k : Int) : Except Fault Keypad :=
  match key? k with
  | .ok k => .ok (p.put k true)
  | .error e => .error e

def release? (p : Keypad) (k : Int) : Except Fault Keypad :=
  match key? k with
  | .ok k => .ok (p.put k false)
  | .error e => .error e

def pressed? (p : Keypad) (k : Int) : Except Fault Bool :=
  match key? k with
  | .ok k => .ok (p.isDown k)
  | .error e => .error e

def lowest? (p : Keypad) : Option (Fin 16) := (List.finRange 16).find? p.isDown

end Keypad

end Chip8
