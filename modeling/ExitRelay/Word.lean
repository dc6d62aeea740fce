/-!
# Machine words

A register, a field of a virtual-machine control structure and an identifier are 64-bit
words.  `slice` cuts a field of bits out of a word, `bit` reads a single one, `bits` lists
the positions of those that are set, and `hex` is the text of a word: `0x` and its
hexadecimal digits in lower case, without leading zeros.

`Vpid` is the type of the identifiers of virtual processors.  Three of them stand, as an
argument of a hypercall, for a processor that depends on the caller.
-/

namespace ExitRelay

/-- The number that names a virtual processor. -/
abbrev Vpid := UInt64

/-- As an argument: the calling processor itself. -/
def Vpid.self : Vpid := 0xffff_ffff_ffff_ffff

/-- As an argument: the parent of the calling processor. -/
def Vpid.parent : Vpid := 0xffff_ffff_ffff_fffe

/-- As an argument: any processor. -/
def Vpid.any : Vpid := 0xffff_ffff_ffff_fffd

namespace Word

/-- The `length` bits of `w` from position `low` upwards, moved down to position 0. -/
def slice (w : UInt64) (low length : Nat) : UInt64 :=
  UInt64.ofNat ((w.toNat >>> low) % (1 <<< length))

/-- The bit of `w` at position `i`. -/
def bit (w : UInt64) (i : Nat) : Bool :=
  w.toNat.testBit i

/-- The positions of the bits set in `w`, from the lowest up. -/
def bits (w : UInt64) : List Nat :=
  (List.range 64).filter (bit w)

/-- The hexadecimal text of a word. -/
def hex (w : UInt64) : String :=
  "0x" ++ String.ofList (Nat.toDigits 16 w.toNat)

theorem toNat_slice (w : UInt64) (low length : Nat) :
  (slice w low length).toNat = (w.toNat >>> low) % (1 <<< length)
  := by
  have hle : (w.toNat >>> low) % (1 <<< length) ≤ w.toNat :=
    Nat.le_trans (Nat.mod_le _ _) (by simpa [Nat.shiftRight_eq_div_pow] using Nat.div_le_self _ _)
  simp only [slice, UInt64.toNat_ofNat']
  exact Nat.mod_eq_of_lt (Nat.lt_of_le_of_lt hle w.toNat_lt)

/-- A slice of `length` bits is below the word whose only bit is at position `length`. -/
theorem slice_lt (w : UInt64) (low length : Nat) :
  (slice w low length).toNat < 1 <<< length
  := by
  rw [toNat_slice, Nat.one_shiftLeft]
  exact Nat.mod_lt _ (Nat.two_pow_pos length)

/-- The bits of a slice are those of the word, `low` positions higher. -/
theorem bit_slice (w : UInt64) (low length i : Nat) :
  bit (slice w low length) i = (decide (i < length) && bit w (low + i))
  := by
  simp [bit, toNat_slice, Nat.one_shiftLeft, Nat.testBit_mod_two_pow, Nat.testBit_shiftRight]

/-! ### Words as rows of bits -/

variable {a b : UInt64} {i : Nat}

theorem bit_eq (w : UInt64) (i : Nat) :
  bit w i = w.toBitVec.getLsbD i
  := rfl

/-- Words with the same bits are the same. -/
theorem ext (h : ∀ i, i < 64 → bit a i = bit b i) :
  a = b
  := by
  apply UInt64.eq_of_toBitVec_eq
  apply BitVec.eq_of_getLsbD_eq
  exact h

@[simp]
theorem bit_or (a b : UInt64) (i : Nat) :
  bit (a ||| b) i = (bit a i || bit b i)
  := by
  rw [bit_eq, UInt64.toBitVec_or, BitVec.getLsbD_or, ← bit_eq, ← bit_eq]

@[simp]
theorem bit_and (a b : UInt64) (i : Nat) :
  bit (a &&& b) i = (bit a i && bit b i)
  := by
  rw [bit_eq, UInt64.toBitVec_and, BitVec.getLsbD_and, ← bit_eq, ← bit_eq]

@[simp]
theorem bit_not (a : UInt64) (h : i < 64) :
  bit (~~~a) i = !bit a i
  := by
  rw [bit_eq, UInt64.toBitVec_not, BitVec.getLsbD_not, ← bit_eq, decide_eq_true h, Bool.true_and]

@[simp]
theorem bit_zero (i : Nat) :
  bit 0 i = false
  := Nat.zero_testBit i

/-- No bit lies outside a word if and only if all bits are bits of the word. -/
theorem and_not_eq_zero_iff :
  a &&& ~~~b = 0 ↔ ∀ i, i < 64 → bit a i = true → bit b i = true
  := by
  constructor
  · intro h i hi ha
    have hbit : bit (a &&& ~~~b) i = false := by
      rw [h, bit_zero]
    rw [bit_and, bit_not b hi, ha, Bool.true_and, Bool.not_eq_false'] at hbit
    exact hbit
  · intro h
    apply ext
    intro i hi
    rw [bit_zero, bit_and, bit_not b hi]
    cases ha : bit a i with
    | false => rfl
    | true => rw [h i hi ha]; rfl

example : slice 0xdead_0000_0002_0003 16 16 = 2 := by decide

example : hex 0xdead_0000 = "0xdead0000" ∧ hex 0 = "0x0" := by decide +kernel

end Word

end ExitRelay
