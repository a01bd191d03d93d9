/-!
# The field of 256 elements

Symbols of the erasure code are bytes read as polynomials over the field of two elements, modulo
x^8 + x^4 + x^3 + x^2 + 1. Sums are exclusive ors and products are added up bit by bit. Main
statement: the tables that the code looks up hold exactly the products and the inverses.
-/
namespace DataSquare.Erasure

/-- An element of the field. -/
structure Gf256 where
  /-- The coefficients, the lowest in the lowest bit. -/
  byte : UInt8
deriving DecidableEq

namespace Gf256

instance : Zero Gf256 := ⟨⟨0⟩⟩

instance : One Gf256 := ⟨⟨1⟩⟩

instance : Add Gf256 := ⟨fun left right => ⟨left.byte ^^^ right.byte⟩⟩

instance : Sub Gf256 := ⟨fun left right => ⟨left.byte ^^^ right.byte⟩⟩

instance : Neg Gf256 := ⟨fun value => value⟩

/-- A byte multiplied by the polynomial x. -/
def double (byte : UInt8) : UInt8 :=
  (byte <<< 1) ^^^ (if byte &&& 0x80 = 0 then 0 else 0x1d)

/-- The sum of the multiples of a byte by the powers of x that the lowest `count` bits of
another one select. -/
def multiply : Nat → UInt8 → UInt8 → UInt8
  | 0, _, _ => 0
  | count + 1, left, right =>
    (if right &&& 1 = 0 then 0 else left) ^^^ multiply count (double left) (right >>> 1)

instance : Mul Gf256 := ⟨fun left right => ⟨multiply 8 left.byte right.byte⟩⟩

/-- A power of an element. -/
def power (base : Gf256) : Nat → Gf256
  | 0 => 1
  | exponent + 1 => power base exponent * base

/-- The inverse of an element other than zero, its power 254. -/
instance : Inv Gf256 := ⟨fun value => power value 254⟩

instance : Div Gf256 := ⟨fun left right => left * right⁻¹⟩

/-- All products, row by row. -/
def products : Array UInt8 :=
  Array.ofFn fun entry : Fin 65536 =>
    multiply 8 (UInt8.ofNat (entry.val / 256)) (UInt8.ofNat (entry.val % 256))

/-- A product looked up in the table. -/
@[inline] def lookup (left right : Gf256) : Gf256 :=
  ⟨products.getD (left.byte.toNat * 256 + right.byte.toNat) 0⟩

/-- An entry of a table is the value of the function it was made of. -/
theorem getD_ofFn {size : Nat} (entry : Nat → UInt8) {index : Nat} (h : index < size) :
    (Array.ofFn fun position : Fin size => entry position.val).getD index 0 = entry index := by
  simp [Array.getD, h]

/-- The table holds exactly the products. -/
theorem lookup_eq_mul (left right : Gf256) : lookup left right = left * right := by
  have hl := left.byte.toNat_lt
  have hr := right.byte.toNat_lt
  have hbound : left.byte.toNat * 256 + right.byte.toNat < 65536 := by omega
  have hdiv : (left.byte.toNat * 256 + right.byte.toNat) / 256 = left.byte.toNat := by omega
  have hmod : (left.byte.toNat * 256 + right.byte.toNat) % 256 = right.byte.toNat := by omega
  have hentry := getD_ofFn 
    (fun entry => multiply 8 (UInt8.ofNat (entry / 256)) (UInt8.ofNat (entry % 256))) hbound
  simp only [hdiv, hmod, UInt8.ofNat_toNat] at hentry
  exact congrArg Gf256.mk hentry

/-- All inverses. -/
def inverses : Array UInt8 :=
  Array.ofFn fun entry : Fin 256 => ((⟨UInt8.ofNat entry.val⟩ : Gf256)⁻¹).byte

/-- An inverse looked up in the table. -/
def reciprocal (value : Gf256) : Gf256 := ⟨inverses.getD value.byte.toNat 0⟩

/-- The table holds exactly the inverses. -/
theorem reciprocal_eq_inv (value : Gf256) : value.reciprocal = value⁻¹ := by
  have hentry := getD_ofFn (fun entry => ((⟨UInt8.ofNat entry⟩ : Gf256)⁻¹).byte)
    value.byte.toNat_lt
  simp only [UInt8.ofNat_toNat] at hentry
  exact congrArg Gf256.mk hentry

end Gf256

end DataSquare.Erasure
