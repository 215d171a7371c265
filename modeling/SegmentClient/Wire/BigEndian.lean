namespace SegmentClient.Wire.BigEndian

def span : Nat → Nat
  | 0 => 1
  | width + 1 => span width * 256

/-- The `width` low bytes of `n`, most significant first. -/
def encode : Nat → Nat → List UInt8
  | 0, _ => []
  | width + 1, n => encode width (n / 256) ++ [UInt8.ofNat n]

def decode (bytes : List UInt8) : Nat :=
  bytes.foldl (fun n b => n * 256 + b.toNat) 0

@[simp] theorem length_encode (width n : Nat) : (encode width n).length = width := by
  induction width generalizing n with
  | zero => rfl
  | succ width ih => simp [encode, ih]

theorem decode_append_singleton (bytes : List UInt8) (b : UInt8) :
    decode (bytes ++ [b]) = decode bytes * 256 + b.toNat := by
  simp [decode, List.foldl_append]

theorem decode_encode (width n : Nat) : decode (encode width n) = n % span width := by
  induction width generalizing n with
  | zero => simp [encode, decode, span, Nat.mod_one]
  | succ width ih =>
    have hsplit : n % span (width + 1) = 256 * (n / 256 % span width) + n % 256 := by
      rw [span, Nat.mul_comm, Nat.mod_mul]
      omega
    rw [encode, decode_append_singleton, ih, hsplit, UInt8.toNat_ofNat']
    omega

theorem decode_cons (b : UInt8) (bytes : List UInt8) :
    decode (b :: bytes) = b.toNat * span bytes.length + decode bytes := by
  have hstart : ∀ (bs : List UInt8) (n : Nat),
      bs.foldl (fun n b => n * 256 + b.toNat) n = n * span bs.length + decode bs := by
    intro bs
    induction bs with
    | nil => intro n; simp [decode, span]
    | cons c bs ih =>
      intro n
      have hc := ih c.toNat
      simp only [decode, List.foldl_cons, List.length_cons, span] at hc ⊢
      rw [ih, Nat.zero_mul, Nat.zero_add, hc, decode, Nat.add_mul, Nat.mul_assoc,
        Nat.mul_comm 256, Nat.add_assoc]
  simpa [decode] using hstart bytes b.toNat

theorem decode_lt (bytes : List UInt8) : decode bytes < span bytes.length := by
  induction bytes with
  | nil => simp [decode, span]
  | cons b bytes ih =>
    have hb : b.toNat + 1 ≤ 256 := b.toNat_lt
    have hmul := Nat.mul_le_mul_right (span bytes.length) hb
    rw [decode_cons, List.length_cons, span]
    rw [Nat.add_mul] at hmul
    omega

theorem encode_succ (width n : Nat) :
    encode (width + 1) n = UInt8.ofNat (n / span width) :: encode width n := by
  induction width generalizing n with
  | zero => simp [encode, span]
  | succ width ih =>
    rw [encode, ih, encode, List.cons_append, Nat.div_div_eq_div_mul, span,
      Nat.mul_comm 256]

theorem encode_mod (width n : Nat) : encode width (n % span width) = encode width n := by
  induction width generalizing n with
  | zero => rfl
  | succ width ih =>
    have hdiv : n % span (width + 1) / 256 = n / 256 % span width := by
      rw [span, Nat.mul_comm, Nat.mod_mul_right_div_self]
    have hlow : UInt8.ofNat (n % span (width + 1)) = UInt8.ofNat n := by
      apply UInt8.toNat_inj.1
      rw [UInt8.toNat_ofNat', UInt8.toNat_ofNat', span, Nat.mul_comm,
        Nat.mod_mul_right_mod]
    rw [encode, encode, hdiv, ih, hlow]

theorem encode_decode (bytes : List UInt8) : encode bytes.length (decode bytes) = bytes := by
  induction bytes with
  | nil => rfl
  | cons b bytes ih =>
    have hrest := decode_lt bytes
    have htop : decode (b :: bytes) / span bytes.length = b.toNat := by
      rw [decode_cons, Nat.add_comm, Nat.add_mul_div_right _ _ (by omega), Nat.div_eq_of_lt hrest,
        Nat.zero_add]
    have hlow : decode (b :: bytes) % span bytes.length = decode bytes := by
      rw [decode_cons, Nat.add_comm, Nat.add_mul_mod_self_right, Nat.mod_eq_of_lt hrest]
    rw [List.length_cons, encode_succ, htop, ← encode_mod, hlow, ih, UInt8.ofNat_toNat]

end SegmentClient.Wire.BigEndian
