import ShapeTyping.DataType.Basic

/-!
# Digests

The digest of a value is the sequence of items by which it is filed in hash tables. Equal values have
equal digests, so identities, and not names, go into it.
-/

namespace ShapeTyping

/-- One item of a digest. -/
inductive DigestItem where
  | word (value : Nat)
  | text (value : String)
deriving DecidableEq, Hashable, Repr

/-- The digest of a data type. -/
def DataType.digest (dtype : DataType) : List DigestItem :=
  [.word dtype.code.toNat, .word dtype.bits.toNat, .word dtype.lanes.toNat]

end ShapeTyping
