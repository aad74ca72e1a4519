namespace AuthorizedCalls.Digest.Keccak

abbrev State := Vector UInt64 25

def zero : State :=
  Vector.replicate 25 0

/-- The lane at a place of the square, whose sides are joined. -/
def lane (s : State) (x y : Nat) : UInt64 :=
  s.get ⟨x % 5 + 5 * (y % 5), by omega⟩

def ofLanes (f : Nat → Nat → UInt64) : State :=
  Vector.ofFn fun i => f (i.val % 5) (i.val / 5)

def rotate (w : UInt64) (bits : Nat) : UInt64 :=
  (w <<< bits.toUInt64) ||| (w >>> (64 - bits).toUInt64)

/-- Adds to every lane the parity of the column on its left and of the rotated one on its
right. -/
def theta (s : State) : State :=
  let parities := Vector.ofFn fun (x : Fin 5) =>
    lane s x 0 ^^^ lane s x 1 ^^^ lane s x 2 ^^^ lane s x 3 ^^^ lane s x 4
  let parity (x : Nat) : UInt64 := parities.get ⟨x % 5, by omega⟩
  let effects := Vector.ofFn fun (x : Fin 5) => parity (x + 4) ^^^ rotate (parity (x + 1)) 1
  ofLanes fun x y => lane s x y ^^^ effects.get ⟨x % 5, by omega⟩

def offsets : Vector Nat 25 :=
  #v[0, 1, 62, 28, 27, 36, 44, 6, 55, 20, 3, 10, 43, 25, 39, 41, 45, 15, 21, 8, 18, 2, 61, 56, 14]

def rho (s : State) : State :=
  Vector.zipWith rotate s offsets

/-- Moves lane `(x + 3 * y, x)` to `(x, y)`. -/
def pi (s : State) : State :=
  ofLanes fun x y => lane s (x + 3 * y) x

def chi (s : State) : State :=
  ofLanes fun x y => lane s x y ^^^ (~~~lane s (x + 1) y &&& lane s (x + 2) y)

def iota (constant : UInt64) (s : State) : State :=
  s.set 0 (lane s 0 0 ^^^ constant) (by decide)

def roundConstants : List UInt64 := [
  0x0000000000000001, 0x0000000000008082, 0x800000000000808a, 0x8000000080008000,
  0x000000000000808b, 0x0000000080000001, 0x8000000080008081, 0x8000000000008009,
  0x000000000000008a, 0x0000000000000088, 0x0000000080008009, 0x000000008000000a,
  0x000000008000808b, 0x800000000000008b, 0x8000000000008089, 0x8000000000008003,
  0x8000000000008002, 0x8000000000000080, 0x000000000000800a, 0x800000008000000a,
  0x8000000080008081, 0x8000000000008080, 0x0000000080000001, 0x8000000080008008]

def permute (s : State) : State :=
  roundConstants.foldl (fun s constant => iota constant (chi (pi (rho (theta s))))) s

end AuthorizedCalls.Digest.Keccak
