/-!
# Ranges of machine words

The integers that a word of a given width can hold, with a sign and without one.
-/
namespace RecordSearch.Word

def size (bits : Nat) : Nat := Nat.pow 2 bits

/-- Whether an integer from zero on can be held without a sign. -/
def holdsUnsigned (bits : Nat) (i : Int) : Bool := 0 ≤ i && i < (size bits : Int)

/-- Whether an integer can be held with a sign, which takes one bit. -/
def holdsSigned (bits : Nat) (i : Int) : Bool :=
  -(size (bits - 1) : Int) ≤ i && i < (size (bits - 1) : Int)

def holds (bits : Nat) (i : Int) : Bool := holdsUnsigned bits i || holdsSigned bits i

end RecordSearch.Word
