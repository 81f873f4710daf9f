import SpriteVM.Instruction.Table

namespace SpriteVM

namespace Bits

theorem and_word {n : Int} (h : 0 ≤ n) : and n 0xFFFF = n % 65536 := by
  obtain ⟨m, rfl⟩ := Int.eq_ofNat_of_zero_le h
  have hmask : m &&& 0xFFFF = m % 65536 := Nat.and_two_pow_sub_one_eq_mod m 16
  calc and m 0xFFFF = ((m &&& 0xFFFF : Nat) : Int) := rfl
    _ = (m : Int) % 65536 := by rw [hmask]; rfl

end Bits

namespace Instruction

variable {word address : Int}

/-- A word has the first template that fits it, or none fits. -/
theorem decode_template (word address : Int) :
    (decode word address).template ∈ table ∧
        (decode word address).template.fits (word % 65536) = true ∨
      (decode word address).template = unknownTemplate ∧
        ∀ e ∈ table, e.fits (word % 65536) = false := by
  have htemplate : (decode word address).template =
      (table.find? (·.fits (word % 65536))).getD unknownTemplate := rfl
  rw [htemplate]
  cases hfind : table.find? (·.fits (word % 65536)) with
  | none =>
    refine .inr ⟨rfl, fun e he => ?_⟩
    simpa using List.find?_eq_none.1 hfind e he
  | some e =>
    have hfits : e.fits (word % 65536) = true := by simpa using List.find?_some hfind
    exact .inl ⟨List.mem_of_find?_eq_some hfind, hfits⟩

theorem decode_unknown_iff :
    (decode word address).kind = .unknown ↔ ∀ e ∈ table, e.fits (word % 65536) = false := by
  have hknown : ∀ e ∈ table, e.kind ≠ .unknown := by decide
  obtain ⟨hmem, hfits⟩ | ⟨htemplate, hnone⟩ := decode_template word address
  · constructor
    · exact fun hk => absurd hk (hknown _ hmem)
    · intro hnone
      rw [hnone _ hmem] at hfits
      contradiction
  · exact ⟨fun _ => hnone, fun _ => congrArg Template.kind htemplate⟩

theorem decode_halt_iff : (decode word address).kind = .halt ↔ word % 65536 = 0xFFFF := by
  have hhalt : ∀ e ∈ table, e.kind = .halt → e.mask = 0xFFFF ∧ e.pattern = 0xFFFF := by
    decide
  constructor
  · intro hk
    obtain ⟨hmem, hfits⟩ | ⟨htemplate, -⟩ := decode_template word address
    · obtain ⟨hmask, hpattern⟩ := hhalt _ hmem hk
      rw [Template.fits, hmask, hpattern, Bits.and_word (by omega)] at hfits
      have := of_decide_eq_true hfits
      omega
    · rw [Decoded.kind, htemplate] at hk
      contradiction
  · intro hw
    have hfind : (table.find? (·.fits 0xFFFF)).map Template.kind = some .halt := by decide
    obtain ⟨e, he, hk⟩ := Option.map_eq_some_iff.1 hfind
    rw [Decoded.kind, decode, hw, he]
    exact hk

end Instruction

end SpriteVM
