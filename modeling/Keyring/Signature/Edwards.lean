import Keyring.Bytes

/-!
# The twisted Edwards curve of Ed25519

Points of `-x² + y² = 1 + d x² y²` over the field of `2^255 - 19` elements, in extended coordinates
`x = X / Z`, `y = Y / Z`, `x y = T / Z`. Field elements are natural numbers below the field's order.

* `Point.encode` writes a point as 32 octets: `y` with the parity of `x` in the highest bit.
* `Point.decode?` recovers `x`. It takes `y` modulo the field's order and ignores the parity of
  `x = 0`, so some points have several encodings that it accepts.
-/

namespace Keyring.Edwards

/-! ## The field -/

def fieldOrder : Nat := (1 <<< 255) - 19

def add (a b : Nat) : Nat := (a + b) % fieldOrder

def sub (a b : Nat) : Nat := (a + (fieldOrder - b)) % fieldOrder

def mul (a b : Nat) : Nat := a * b % fieldOrder

/-- The binary digits of `n`, lowest first. -/
def bits (n : Nat) : List Bool :=
  if h : n = 0 then [] else (n % 2 == 1) :: bits (n / 2)
termination_by n
decreasing_by omega

/-- Powers by repeated squaring, from the highest digit of the exponent. -/
def pow (a e : Nat) : Nat :=
  (bits e).foldr (fun bit acc => if bit then mul (mul acc acc) a else mul acc acc) 1

/-- The inverse, by Fermat's little theorem. -/
def inverse (a : Nat) : Nat := pow a (fieldOrder - 2)

/-- The curve constant `d = -121665 / 121666`. -/
def curveConstant : Nat := mul (fieldOrder - 121665) (inverse 121666)

/-- A square root of `-1`. -/
def rootOfMinusOne : Nat := pow 2 ((fieldOrder - 1) / 4)

/-- The even square root of `u / v`, if there is one. -/
def evenRoot? (u v : Nat) : Option Nat :=
  let v3 := mul v (mul v v)
  let v7 := mul v (mul v3 v3)
  let r := mul (mul u v3) (pow (mul u v7) ((fieldOrder - 5) / 8))
  let check := mul v (mul r r)
  let even (x : Nat) : Nat := if x % 2 = 0 then x else fieldOrder - x
  if check = u then some (even r)
  else if check = sub 0 u then some (even (mul r rootOfMinusOne))
  else none

/-! ## The group -/

structure Point where
  x : Nat
  y : Nat
  z : Nat
  t : Nat

namespace Point

def neutral : Point := ⟨0, 1, 1, 0⟩

def neg (p : Point) : Point := ⟨sub 0 p.x, p.y, p.z, sub 0 p.t⟩

/-- The addition law, which holds for all pairs of points. -/
def add (p q : Point) : Point :=
  let a := mul (sub p.y p.x) (sub q.y q.x)
  let b := mul (Edwards.add p.y p.x) (Edwards.add q.y q.x)
  let c := mul (mul p.t q.t) (mul 2 curveConstant)
  let d := mul 2 (mul p.z q.z)
  let e := sub b a
  let f := sub d c
  let g := Edwards.add d c
  let h := Edwards.add b a
  ⟨mul e f, mul g h, mul f g, mul e h⟩

def double (p : Point) : Point :=
  let a := mul p.x p.x
  let b := mul p.y p.y
  let c := mul 2 (mul p.z p.z)
  let h := Edwards.add a b
  let s := Edwards.add p.x p.y
  let e := sub h (mul s s)
  let g := sub a b
  let f := Edwards.add c g
  ⟨mul e f, mul g h, mul f g, mul e h⟩

/-- The `n`-fold sum of a point, by doubling from the highest digit of `n`. -/
def scale (n : Nat) (p : Point) : Point :=
  (bits n).foldr (fun bit acc => if bit then acc.double.add p else acc.double) neutral

/-! ## Encodings -/

def encode (p : Point) : Bytes :=
  let i := inverse p.z
  Bytes.littleEndian 32 (mul p.y i + (mul p.x i % 2) <<< 255)

/-- The point that 32 octets stand for, if their `y` belongs to a point. -/
def decode? (bytes : Bytes) : Option Point :=
  if bytes.length ≠ 32 then none
  else
    let n := Bytes.ofLittleEndian bytes
    let y := n % (1 <<< 255) % fieldOrder
    let y2 := mul y y
    (evenRoot? (sub y2 1) (Edwards.add (mul curveConstant y2) 1)).map fun root =>
      let x := if 1 <<< 255 ≤ n then sub 0 root else root
      ⟨x, y, 1, mul x y⟩

/-- The generator, of prime order `groupOrder`: the point with `y = 4 / 5` and even `x`. -/
def generator : Point :=
  let y := mul 4 (inverse 5)
  let y2 := mul y y
  let x := (evenRoot? (sub y2 1) (Edwards.add (mul curveConstant y2) 1)).getD 0
  ⟨x, y, 1, mul x y⟩

end Point

/-- The order of the group that the generator spans. -/
def groupOrder : Nat := (1 <<< 252) + 27742317777372353535851937790883648493

end Keyring.Edwards
