import Mathlib.Algebra.Group.Nat.Defs
import Mathlib.Data.List.Pairwise
import SpriteVM.Proofs.Instruction.Decode

namespace SpriteVM

namespace Bits

/-- An integer is known by its bits. -/
theorem eq_of_test {a b : Int} (h : ∀ k, test a k = test b k) : a = b := by
  -- beyond the bits of both magnitudes a bit tells the sign
  have hsign (m n : Nat) : ¬ ∀ k, m.testBit k = !n.testBit k := by
    intro hall
    have hbeyond := hall (m + n)
    have hm : m < 2 ^ (m + n) := Nat.lt_of_le_of_lt (Nat.le_add_right m n) Nat.lt_two_pow_self
    have hn : n < 2 ^ (m + n) := Nat.lt_of_le_of_lt (Nat.le_add_left n m) Nat.lt_two_pow_self
    rw [Nat.testBit_lt_two_pow hm, Nat.testBit_lt_two_pow hn] at hbeyond
    contradiction
  cases a with
  | ofNat m =>
    cases b with
    | ofNat n => exact congrArg Int.ofNat (Nat.eq_of_testBit_eq h)
    | negSucc n => exact (hsign m n h).elim
  | negSucc m =>
    cases b with
    | ofNat n => exact (hsign n m fun k => (h k).symm).elim
    | negSucc n =>
      have hall (k : Nat) : m.testBit k = n.testBit k := Bool.not_inj (h k)
      exact congrArg Int.negSucc (Nat.eq_of_testBit_eq hall)

theorem and_right_comm (a m n : Int) : and (and a m) n = and (and a n) m := by
  refine eq_of_test fun k => ?_
  simp only [test_and, Bool.and_right_comm]

theorem test_natCast (m k : Nat) : test m k = m.testBit k := rfl

/-- Division by a power of two drops the lowest bits. -/
theorem test_ediv (a : Int) (i k : Nat) : test (a / (2 ^ i : Nat)) k = test a (k + i) := by
  have hpos : (0 : Int) < (2 ^ i : Nat) := by exact_mod_cast Nat.two_pow_pos i
  cases a with
  | ofNat m => exact Nat.testBit_div_two_pow m k
  | negSucc m =>
    have hdiv : Int.negSucc m / (2 ^ i : Nat) = Int.negSucc (m / 2 ^ i) := by
      rw [Int.negSucc_ediv m hpos]
      rfl
    rw [hdiv]
    exact congrArg not (Nat.testBit_div_two_pow m k)

/-- The remainder of a division by a power of two keeps the lowest bits. -/
theorem test_emod (a : Int) (i k : Nat) :
    test (a % (2 ^ i : Nat)) k = (decide (k < i) && test a k) := by
  have hpos : (0 : Int) < (2 ^ i : Nat) := by exact_mod_cast Nat.two_pow_pos i
  cases a with
  | ofNat m => exact Nat.testBit_mod_two_pow m i k
  | negSucc m =>
    have hlt : m % 2 ^ i < 2 ^ i := Nat.mod_lt m (Nat.two_pow_pos i)
    have hmod : Int.negSucc m % (2 ^ i : Nat) = (2 ^ i - (m % 2 ^ i + 1) : Nat) := by
      rw [Int.negSucc_emod m hpos]
      omega
    rw [hmod, test_natCast, Nat.testBit_two_pow_sub_succ hlt, Nat.testBit_mod_two_pow]
    by_cases hk : k < i <;> simp [hk, test]

/-- The bits under a mask of `j` ones before `i` zeros. -/
theorem and_mask (a : Int) (i j : Nat) :
    and a (2 ^ i * (2 ^ j - 1) : Nat) = a / (2 ^ i : Nat) % (2 ^ j : Nat) * (2 ^ i : Nat) := by
  have hpos : (0 : Int) < (2 ^ j : Nat) := by exact_mod_cast Nat.two_pow_pos j
  obtain ⟨m, hm⟩ := Int.eq_ofNat_of_zero_le (Int.emod_nonneg (a / (2 ^ i : Nat)) (Int.ne_of_gt hpos))
  refine eq_of_test fun k => ?_
  have hbit (k : Nat) : m.testBit k = (decide (k < j) && test a (k + i)) := by
    rw [← test_natCast, ← hm, test_emod, test_ediv]
  rw [test_and, test_natCast, hm, ← Int.natCast_mul, test_natCast, Nat.mul_comm m,
    Nat.testBit_two_pow_mul, Nat.testBit_two_pow_mul, Nat.testBit_two_pow_sub_one, hbit]
  by_cases hk : i ≤ k
  · simp [hk, Bool.and_comm]
  · simp [hk]

theorem and_lowest (a : Int) (j : Nat) : and a (2 ^ j - 1 : Nat) = a % (2 ^ j : Nat) := by
  simpa using and_mask a 0 j

end Bits

namespace Decoded

variable {κ : Type}

/-- The operands of an instruction are the bits of its word under their masks, and make up the word. -/
structure Recomposed (d : Decoded κ) : Prop where
  x_mask : (d.x.val : Int) * 256 = Bits.and d.word 0x0F00
  y_mask : (d.y.val : Int) * 16 = Bits.and d.word 0x00F0
  nibble_mask : (d.nibble.val : Int) = Bits.and d.word 0x000F
  byte_mask : d.byte = Bits.and d.word 0x00FF
  nnn_mask : d.nnn = Bits.and d.word 0x0FFF
  byte : d.byte = d.y.val * 16 + d.nibble.val
  nnn : d.nnn = d.x.val * 256 + d.byte
  word : d.word = d.word / 4096 * 4096 + d.nnn

theorem digit_val (word : Int) (k : Nat) : ((digit word k).val : Int) = word / (16 ^ k : Nat) % 16 := by
  have hnonneg : 0 ≤ word / (Nat.pow 16 k) % 16 := by omega
  exact Int.toNat_of_nonneg hnonneg

theorem recomposed (d : Decoded κ) : d.Recomposed := by
  have hx : (d.x.val : Int) = d.word / 256 % 16 := digit_val d.word 2
  have hy : (d.y.val : Int) = d.word / 16 % 16 := digit_val d.word 1
  have hn : (d.nibble.val : Int) = d.word % 16 := by
    rw [nibble, digit_val]
    omega
  constructor
  case x_mask => rw [hx]; exact (Bits.and_mask d.word 8 4).symm
  case y_mask => rw [hy]; exact (Bits.and_mask d.word 4 4).symm
  case nibble_mask => rw [hn]; exact (Bits.and_lowest d.word 4).symm
  case byte_mask => exact (Bits.and_lowest d.word 8).symm
  case nnn_mask => exact (Bits.and_lowest d.word 12).symm
  case byte => unfold byte; omega
  case nnn => unfold nnn byte; omega
  case word => unfold nnn; omega

end Decoded

namespace Instruction

variable {word address : Int} {t u : Template Kind}

/-- The classification by templates tried in some other order. -/
def decodeIn (order : List (Template Kind)) (word address : Int) : Instruction :=
  ⟨word % 65536, (order.find? (·.fits (word % 65536))).getD unknownTemplate, address⟩

/-- A word that fits two templates shows each of them, under its mask, the pattern of the other. -/
theorem patterns_agree (ht : t.fits word = true) (hu : u.fits word = true) :
    Bits.and t.pattern u.mask = Bits.and u.pattern t.mask := by
  have ht : Bits.and word t.mask = t.pattern := of_decide_eq_true ht
  have hu : Bits.and word u.mask = u.pattern := of_decide_eq_true hu
  rw [← ht, ← hu, Bits.and_right_comm]

theorem table_disjoint :
    table.Pairwise fun t u => Bits.and t.pattern u.mask ≠ Bits.and u.pattern t.mask := by
  decide

/-- No word fits two templates of the table. -/
theorem table_unambiguous (word : Int) :
    table.Pairwise fun t u => ¬ (t.fits word = true ∧ u.fits word = true) :=
  table_disjoint.imp fun hne hboth => hne (patterns_agree hboth.1 hboth.2)

theorem eq_of_fits (ht : t ∈ table) (hu : u ∈ table) (hword : t.fits word = true)
    (hword' : u.fits word = true) : t = u := by
  have : Std.Symm fun t u : Template Kind => ¬ (t.fits word = true ∧ u.fits word = true) :=
    ⟨fun _ _ h hboth => h hboth.symm⟩
  by_contra hne
  exact (table_unambiguous word).forall ht hu hne ⟨hword, hword'⟩

section Order

variable {order : List (Template Kind)} (horder : order.Perm table)

include horder

/-- The template that fits a word is found in any order. -/
theorem decodeIn_of_fits (ht : t ∈ table) (hword : t.fits (word % 65536) = true) :
    decodeIn order word address = ⟨word % 65536, t, address⟩ := by
  unfold decodeIn
  cases hfind : order.find? (·.fits (word % 65536)) with
  | none => exact absurd hword (List.find?_eq_none.1 hfind t (horder.mem_iff.2 ht))
  | some u =>
    have hu : u ∈ table := horder.mem_iff.1 (List.mem_of_find?_eq_some hfind)
    have hfits : u.fits (word % 65536) = true := by simpa using List.find?_some hfind
    rw [Option.getD_some, eq_of_fits hu ht hfits hword]

theorem decodeIn_of_unfit (hnone : ∀ t ∈ table, t.fits (word % 65536) = false) :
    decodeIn order word address = ⟨word % 65536, unknownTemplate, address⟩ := by
  have hfind : order.find? (·.fits (word % 65536)) = none :=
    List.find?_eq_none.2 fun t ht => by simp [hnone t (horder.mem_iff.1 ht)]
  rw [decodeIn, hfind, Option.getD_none]

end Order

theorem decodeIn_table (word address : Int) : decodeIn table word address = decode word address := rfl

theorem fits_or_unfit (word : Int) :
    (∃ t ∈ table, t.fits word = true) ∨ ∀ t ∈ table, t.fits word = false := by
  by_cases h : ∃ t ∈ table, t.fits word = true
  · exact .inl h
  · exact .inr fun t ht => by simpa using fun hfits => h ⟨t, ht, hfits⟩

/-- The lowest sixteen bits of a word fit one template at most, in whatever order they are tried, and
the operands make up the word. -/
theorem decode_unambiguous (word address : Int) :
    table.Pairwise (fun t u => ¬ (t.fits (word % 65536) = true ∧ u.fits (word % 65536) = true)) ∧
      (∀ t ∈ table, t.fits (word % 65536) = true →
        decode word address = ⟨word % 65536, t, address⟩) ∧
      ((∀ t ∈ table, t.fits (word % 65536) = false) →
        decode word address = ⟨word % 65536, unknownTemplate, address⟩) ∧
      (∀ order : List (Template Kind), order.Perm table →
        decodeIn order word address = decode word address) ∧
      ∀ (κ : Type) (t : Template κ), (Decoded.mk word t address).Recomposed := by
  have hself : table.Perm table := .refl table
  refine ⟨table_unambiguous _, fun t ht hfits => ?_, fun hunfit => ?_, fun order horder => ?_,
    fun κ t => Decoded.recomposed _⟩
  · rw [← decodeIn_table, decodeIn_of_fits hself ht hfits]
  · rw [← decodeIn_table, decodeIn_of_unfit hself hunfit]
  · obtain ⟨t, ht, hfits⟩ | hunfit := fits_or_unfit (word % 65536)
    · rw [← decodeIn_table, decodeIn_of_fits horder ht hfits, decodeIn_of_fits hself ht hfits]
    · rw [← decodeIn_table, decodeIn_of_unfit horder hunfit, decodeIn_of_unfit hself hunfit]

/-- A number below zero, of which the lowest bits clear the picture; the templates are tried from the
last to the first. -/
theorem decode_unambiguous_negative :
    table.reverse.Perm table ∧ (⟨0x00E0, 0xFFFF, .none, "CLS", .clear⟩ : Template Kind) ∈ table ∧
      decodeIn table.reverse (-0xFF20) 0x200 = decode (-0xFF20) 0x200 ∧
      decode (-0xFF20) 0x200 = ⟨0x00E0, ⟨0x00E0, 0xFFFF, .none, "CLS", .clear⟩, 0x200⟩ := by
  have horder : table.reverse.Perm table := List.reverse_perm table
  have hmem : (⟨0x00E0, 0xFFFF, .none, "CLS", .clear⟩ : Template Kind) ∈ table := by decide
  obtain ⟨-, hfits, -, hany, -⟩ := decode_unambiguous (-0xFF20) 0x200
  exact ⟨horder, hmem, hany _ horder, hfits _ hmem (by decide)⟩

end Instruction

end SpriteVM
