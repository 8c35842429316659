import Keyring.Uuid

/-!
# Names of new keys

A way to name keys gives the `n`-th name for each `n`, counted from zero.
-/

namespace Keyring.Names

/-- A stem and a number from 1 on, of at least four digits. -/
def sequential (stem : String) (n : Nat) : String :=
  stem ++ "-" ++ String.ofList (Decimal.padded 4 (n + 1))

/-- The given names in turn, over and over. -/
def cyclic (names : List String) (n : Nat) : String := (names[n % names.length]?).getD ""

/-- Names that do not repeat, each with a random identifier. -/
def random (pool : Entropy) (n : Nat) : String := "key-" ++ Uuid.random pool n

/-- Whether a text is a random name. -/
def isRandom (name : String) : Bool :=
  name.toList.take 4 == "key-".toList && Uuid.isRandom (String.ofList (name.toList.drop 4))

end Keyring.Names
