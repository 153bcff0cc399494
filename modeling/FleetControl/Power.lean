/-!
# Powers

A power of a whole number is the core library's, also where a larger library offers an instance of
its own: definitions compute the same powers, and lemmas about them fit, whatever is imported.
-/
namespace FleetControl

@[default_instance 20000]
instance (priority := 2000) intPower : Pow Int Nat := instPowNat

@[default_instance 30000]
instance (priority := 2000) natPower : Pow Nat Nat := instPowNat

end FleetControl
