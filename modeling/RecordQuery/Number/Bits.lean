/-!
# Bits of integers

The digits of an integer in base two go on to the left without end: with zeros, or with ones if the
integer is negative.

* `Bits.both`, `Bits.either` and `Bits.differ` combine the digits of two integers place by place.
-/

namespace RecordQuery.Bits

/-- The integer with a one where both integers have one. -/
def both : Int → Int → Int
  | .ofNat m, .ofNat n => .ofNat (m &&& n)
  | .ofNat m, .negSucc n => .ofNat (m - (m &&& n))
  | .negSucc m, .ofNat n => .ofNat (n - (m &&& n))
  | .negSucc m, .negSucc n => .negSucc (m ||| n)

/-- The integer with ones and zeros exchanged. -/
def inverse (n : Int) : Int := -n - 1

@[simp] theorem inverse_inverse (n : Int) : inverse (inverse n) = n := by
  simp only [inverse]
  omega

/-- The integer with a one where one of the integers has one. -/
def either (m n : Int) : Int := inverse (both (inverse m) (inverse n))

/-- The integer with a one where exactly one of the integers has one. -/
def differ (m n : Int) : Int := either m n - both m n

end RecordQuery.Bits
