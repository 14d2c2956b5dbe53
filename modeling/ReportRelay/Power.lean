/-!
# Powers

A power of a number is the one that the number's own type defines, also where an algebraic structure on the type
offers another one that is equal to it.
-/

namespace ReportRelay

@[default_instance 20000]
instance (priority := high) natPower : Pow Nat Nat := ⟨Nat.pow⟩

@[default_instance 20000]
instance (priority := high) intPower : Pow Int Nat := ⟨Int.pow⟩

end ReportRelay
