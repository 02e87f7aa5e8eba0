/-!
# Instances

A library that is imported can have powers and zeros of its own for natural numbers, and these
come before the ones of the core library.  The same term would then mean one thing where the
library is imported and another where it is not, so the ones of the core library are put first.
-/

attribute [instance(high)] instPowNat Zero.ofOfNat0

attribute [default_instance 20000] instPowNat
