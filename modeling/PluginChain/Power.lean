/-!
# Powers of whole numbers

A numeral with an exponent is the power of natural numbers or integers themselves (`instPowNat`), also
where a more general notion of a power is at hand.
-/

set_option autoImplicit false

attribute [default_instance 20000] instPowNat
