import PerpClient.Curve.Field
/-!
# The twisted Edwards curve of Ed25519

Points of `-x² + y² = 1 + d x² y²` over the field of `Field`, in extended coordinates
`(X : Y : Z : T)` with `x = X/Z`, `y = Y/Z`, `x y = T/Z`. A point is written as 32 bytes: `y`
little endian, with the parity of `x` in the top bit.

* `Point.add` is the unified addition law (it also doubles), `Point.smul` multiplies by a scalar;
* `Point.encode` writes a point;
* `isCurvePoint` decides whether 32 bytes are the encoding of some point: the `y` they carry
  (top bit cleared) must have `(y² - 1) / (d y² + 1)` a square, or `y² = 1`.
-/

namespace PerpClient.Edwards

open PerpClient.Field

/-- The curve constant `d = -121665 / 121666`. -/
def d : Nat :=
  37095705934669439343138083508754565189542113879843219016388785533085940283555

/-- The order of the base point. -/
def groupOrder : Nat := Nat.pow 2 252 + 27742317777372353535851937790883648493

/-- A point in extended coordinates. -/
structure Point where
  x : Nat
  y : Nat
  z : Nat
  t : Nat

/-- The neutral point `(0, 1)`. -/
def Point.zero : Point := ⟨0, 1, 1, 0⟩

/-- The base point, whose `y` is `4/5` and whose `x` is even. -/
def Point.base : Point :=
  let bx := 15112221349535400772501151409588531511454012693041857206046113283949847762202
  let by_ := 46316835694926478169428394003475163141307993866256225615783033603165251855960
  ⟨bx, by_, 1, mul bx by_⟩

/-- The unified addition law of the curve with `a = -1`. -/
def Point.add (P Q : Point) : Point :=
  let a := mul (sub P.y P.x) (sub Q.y Q.x)
  let b := mul (Field.add P.y P.x) (Field.add Q.y Q.x)
  let c := mul (mul P.t (mul 2 d)) Q.t
  let e := mul (mul P.z 2) Q.z
  let ee := sub b a
  let f := sub e c
  let g := Field.add e c
  let h := Field.add b a
  ⟨mul ee f, mul g h, mul f g, mul ee h⟩

/-- `k` times a point, by doubling and adding on the bits of `k`. -/
def Point.smul (k : Nat) (P : Point) : Point :=
  if k = 0 then Point.zero
  else
    let half := Point.smul (k / 2) P
    let twice := half.add half
    if k % 2 = 0 then twice else twice.add P
termination_by k
decreasing_by omega

/-- The 32-byte encoding of a point: affine `y` little endian, the parity of `x` on top. -/
def Point.encode (P : Point) : List UInt8 :=
  let zi := inv P.z
  let ax := mul P.x zi
  let ay := mul P.y zi
  toLittleEndian (ay + (ax % 2) * Nat.pow 2 255) 32

/-- Whether 32 bytes decode to a point of the curve. The top bit only chooses the sign of `x`,
so it plays no part; a `y` at or above `p` is read modulo `p`. -/
def isCurvePoint (bs : List UInt8) : Bool :=
  let y := ofLittleEndian bs % Nat.pow 2 255 % p
  let yy := mul y y
  let u := sub yy 1
  let v := add (mul d yy) 1
  if u = 0 then true
  else if v = 0 then false
  else isSquare (mul u (inv v))

end PerpClient.Edwards
