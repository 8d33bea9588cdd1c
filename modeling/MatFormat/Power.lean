/-
This file settles what a power of numbers is. Other libraries give every monoid a power of
its own, which on numbers is the same but not literally so; here the power of the core
library always comes first, so that a power means the same wherever it is written.
-/

attribute [instance (20000)] instPowNat
attribute [default_instance 20000] instPowNat
