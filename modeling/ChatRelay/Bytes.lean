namespace ChatRelay

abbrev Bytes := List UInt8

/-- The `width` low bytes of `n`, most significant first. -/
def Bytes.ofNat : (width : Nat) → (n : Nat) → Bytes
  | 0, _ => []
  | width + 1, n => UInt8.ofNat (n / Nat.pow 256 width) :: Bytes.ofNat width n

/-- The number that a byte string writes in base 256, most significant byte first. -/
def Bytes.toNat (bytes : Bytes) : Nat :=
  bytes.foldl (fun value byte => 256 * value + byte.toNat) 0

/-- A signed word as eight bytes of two's complement. -/
def Bytes.ofInt64 (value : Int64) : Bytes :=
  Bytes.ofNat 8 value.toUInt64.toNat

/-- Reads two's complement back; only the low 64 bits count. -/
def Bytes.toInt64 (bytes : Bytes) : Int64 :=
  (UInt64.ofNat bytes.toNat).toInt64

@[simp] theorem Bytes.length_ofNat (width n : Nat) : (Bytes.ofNat width n).length = width := by
  induction width with
  | zero => rfl
  | succ width ih => simp [Bytes.ofNat, ih]

@[simp] theorem Bytes.length_ofInt64 (value : Int64) : (Bytes.ofInt64 value).length = 8 := by
  simp [Bytes.ofInt64]

private theorem foldl_ofNat (width n start : Nat) :
    (Bytes.ofNat width n).foldl (fun value byte => 256 * value + byte.toNat) start =
      Nat.pow 256 width * start + n % Nat.pow 256 width := by
  induction width generalizing start with
  | zero => simp [Bytes.ofNat, Nat.mod_one]
  | succ width ih =>
    have more : Nat.pow 256 (width + 1) = Nat.pow 256 width * 256 := rfl
    have split : n % (Nat.pow 256 width * 256) =
        Nat.pow 256 width * (n / Nat.pow 256 width % 256) + n % Nat.pow 256 width := by
      rw [Nat.mod_mul, Nat.add_comm]
    simp only [Bytes.ofNat, List.foldl_cons, ih, UInt8.toNat_ofNat', more]
    grind

theorem Bytes.toNat_ofNat (width n : Nat) : (Bytes.ofNat width n).toNat = n % Nat.pow 256 width := by
  simp [Bytes.toNat, foldl_ofNat]

@[simp] theorem Bytes.toInt64_ofInt64 (value : Int64) : (Bytes.ofInt64 value).toInt64 = value := by
  simp [Bytes.ofInt64, Bytes.toInt64, Bytes.toNat_ofNat]

end ChatRelay
