/-! Powers with a natural exponent. Numbers keep those of the core library: other libraries come with
powers of their own, and `2 ^ 64` would not be the same term in every module. -/

attribute [instance (high), default_instance 20000] instPowNat
