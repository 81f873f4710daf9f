import SpriteVM.Proofs.Bus.Replay

namespace SpriteVM

/-- From `address` on the bytes of a list were written as far as memory goes, and no others. -/
structure Written (address : Int) (data : List Int) (before after : Int → Int) : Prop where
  inside : ∀ (k : Nat) d, data[k]? = some d → address + k ≤ 0xFFF → after (address + k) = d
  outside : ∀ a, a < address ∨ address + data.length ≤ a ∨ 0xFFF < a → after a = before a

namespace Written

variable {address d : Int} {data : List Int} {before after : Int → Int}

theorem nil (address : Int) (before : Int → Int) : Written address [] before before :=
  ⟨nofun, fun _ _ => rfl⟩

/-- Beyond the memory nothing is written. -/
theorem beyond (h : 0xFFF < address) (data : List Int) (before : Int → Int) :
    Written address data before before :=
  ⟨fun _ _ _ hle => by omega, fun _ _ => rfl⟩

theorem cons (ha : address ≤ 0xFFF)
    (h : Written (address + 1) data (Function.update before address d) after) :
    Written address (d :: data) before after where
  inside := by
    rintro (_ | k) e hk hle
    · obtain rfl : d = e := by simpa using hk
      have hfirst : after address = Function.update before address d address :=
        h.outside address (.inl (by omega))
      simpa using hfirst
    · have haddress : address + (k + 1 : Nat) = address + 1 + k := by omega
      rw [haddress] at hle ⊢
      exact h.inside k e hk hle
  outside := by
    intro a hout
    rw [List.length_cons] at hout
    have he : a ≠ address := by omega
    rw [h.outside a (by omega), Function.update_of_ne he]

/-- Where the bytes reach beyond the memory, all of its rest was written. -/
theorem cut (h : Written address data before after) (hl : 0xFFF < address + data.length) :
    (∀ k : Nat, address + k ≤ 0xFFF → data[k]? = some (after (address + k))) ∧
      ∀ a, a < address ∨ 0xFFF < a → after a = before a := by
  constructor
  · intro k hk
    have hlt : k < data.length := by omega
    have hget : data[k]? = some data[k] := List.getElem?_eq_getElem hlt
    rw [h.inside k _ hget hk, hget]
  · intro a ha
    exact h.outside a (by omega)

end Written

namespace Bus

variable {b : Bus} {address : Int}

theorem write_byte {t : Bus} {d : Int} (hb : b.layout.OneMemory) (h : write address d b = .ok () t) :
    t.byte = Function.update b.byte address d := by
  obtain ⟨u, hp, rfl⟩ := write_eq_ok h
  exact (poke_byte hb hp :)

/-- A load leaves no record. -/
theorem load_written (hb : b.layout.OneMemory) (ha : 0 ≤ address) (data : List UInt8) :
    Ends (load address data)
      (fun _ t => Written address (data.map fun d => (d.toNat : Int)) b.byte t.byte ∧ t.log = b.log)
      (fun _ t => Written address (data.map fun d => (d.toNat : Int)) b.byte t.byte ∧ t.log = b.log)
      b := by
  induction data generalizing address b with
  | nil => exact ⟨Written.nil address b.byte, rfl⟩
  | cons d data ih =>
    have hlayout := ends_poke address d.toNat b
    have hbyte : 0 ≤ (d.toNat : Int) ∧ (d.toNat : Int) ≤ 255 := by
      have hlt := d.toNat_lt
      omega
    rw [load, ends_bind]
    by_cases hin : Inside address
    · obtain ⟨t, ht⟩ := poke_inside hb hin hbyte
      have hnext : 0 ≤ address + 1 := by omega
      have hrest := ih (b := t) (hlayout.ok ht ▸ hb) hnext
      rw [poke_byte hb ht, poke_log ht] at hrest
      rw [Ends, ht]
      dsimp only
      exact hrest.mono fun _ h => ⟨h.1.cons hin.2, h.2⟩
    · rw [Ends, poke_outside hb hin]
      exact ⟨Written.beyond (beyond_of_outside ha hin) _ _, rfl⟩

end Bus

end SpriteVM
