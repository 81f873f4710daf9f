import Mathlib.Tactic.SplitIfs
import SpriteVM.Proofs.Bus.Replay

namespace SpriteVM

namespace Ram

variable {r : Ram} {offset offset' data : Int}

theorem read_put (h : r.refusal? offset data = none) (hne : offset ≠ offset') :
    (r.put offset.toNat data).read offset' = r.read offset' := by
  obtain ⟨hholds, hdata⟩ := (r.refusal?_eq_none offset data).1 h
  have hiff : (r.put offset.toNat data).holds offset' ↔ r.holds offset' := by
    rw [holds, holds, size_put]
  unfold read
  by_cases hin : r.holds offset'
  · have hplace : offset.toNat ≠ offset'.toNat := by
      unfold holds at hholds hin
      omega
    have hlt : offset.toNat < r.size := by
      unfold holds at hholds
      omega
    rw [if_pos hin, if_pos (hiff.2 hin), cell_put r _ _ hdata hlt, if_neg hplace]
  · rw [if_neg hin, if_neg (mt hiff.1 hin), sizeText, sizeText, size_put]
    rfl

theorem read_put_self (h : r.refusal? offset data = none) :
    (r.put offset.toNat data).read offset = .ok data := by
  obtain ⟨hholds, hdata⟩ := (r.refusal?_eq_none offset data).1 h
  have hin : (r.put offset.toNat data).holds offset := by rwa [holds, size_put]
  have hlt : offset.toNat < r.size := by
    unfold holds at hholds
    omega
  rw [read, if_pos hin, cell_put r _ _ hdata hlt, if_pos rfl]

end Ram

namespace Bus

/-- Two addresses are served by the same cell of memory, or by the same peripheral. -/
def Shares (b : Bus) (address address' : Int) : Prop :=
  ∃ device offset offset', b.find? address = some (device, offset) ∧
    b.find? address' = some (device, offset') ∧
    (offset = offset' ∨ b.layout.extents[device]? = some none)

variable {b t u : Bus} {address address' data : Int} {as : List Int}

theorem find?_congr (h : t.layout = b.layout) (address : Int) : t.find? address = b.find? address := by
  have hranges : t.ranges = b.ranges := congrArg Layout.ranges h
  rw [find?, find?, hranges]

theorem shares_congr (h : t.layout = b.layout) :
    t.Shares address address' ↔ b.Shares address address' := by
  unfold Shares
  rw [find?_congr h, find?_congr h, h]

/-- On one memory every address has a cell of its own. -/
theorem eq_of_shares (hb : b.layout.OneMemory) (h : b.Shares address address') :
    address = address' := by
  obtain ⟨device, offset, offset', hf, hf', hsame⟩ := h
  have inside {a : Int} {place : Nat × Int} (hf : b.find? a = some place) : Inside a := by
    by_contra ha
    rw [find?_outside hb ha] at hf
    contradiction
  obtain ⟨k, r, hk, hr, -⟩ := find?_inside hb (inside hf)
  obtain ⟨k', r', hk', -, -⟩ := find?_inside hb (inside hf')
  obtain ⟨rfl, rfl⟩ := Prod.mk.inj (Option.some.inj (hk.symm.trans hf))
  obtain ⟨-, rfl⟩ := Prod.mk.inj (Option.some.inj (hk'.symm.trans hf'))
  refine hsame.resolve_right ?_
  simp [layout, hr, Device.extent]

/-- What a bus was made of is as before, and so is the byte of each address that shares no cell with
one of these. -/
structure Altered (as : List Int) (b t : Bus) : Prop where
  layout : t.layout = b.layout
  peek : ∀ address, (∀ a ∈ as, ¬ b.Shares a address) → t.peek address = b.peek address

namespace Altered

theorem refl (as : List Int) (b : Bus) : Altered as b b := ⟨rfl, fun _ _ => rfl⟩

theorem trans (h : Altered as b t) (h' : Altered as t u) : Altered as b u where
  layout := h'.layout.trans h.layout
  peek := by
    intro address ha
    have hshares (a : Int) (hm : a ∈ as) : ¬ t.Shares a address :=
      fun hs => ha a hm ((shares_congr h.layout).1 hs)
    rw [h'.peek address hshares, h.peek address ha]

theorem mono {as' : List Int} (h : Altered as b t) (hs : as ⊆ as') : Altered as' b t :=
  ⟨h.layout, fun address ha => h.peek address fun a hm => ha a (hs hm)⟩

theorem byte_eq (h : Altered as b t) (hb : b.layout.OneMemory) (ha : address ∉ as) :
    t.byte address = b.byte address := by
  have hshares (a : Int) (hm : a ∈ as) : ¬ b.Shares a address := by
    intro hs
    obtain rfl := eq_of_shares hb hs
    exact ha hm
  rw [byte, byte, h.peek address hshares]

end Altered

theorem poke_altered (h : poke address data b = .ok () t) : Altered [address] b t where
  layout := (ends_poke address data b).ok h
  peek := by
    intro address' hshares
    have hshares : ¬ b.Shares address address' := hshares address List.mem_cons_self
    unfold poke at h
    cases hf : b.find? address with
    | none => simp [hf] at h
    | some place =>
      obtain ⟨k, offset⟩ := place
      cases hd : b.devices[k]? with
      | none => simp [hf, writeDevice, hd] at h
      | some d =>
        cases hn : d.refusal? offset data with
        | some f => simp [hf, writeDevice, hd, hn] at h
        | none =>
          simp only [hf, writeDevice, hd, hn] at h
          obtain ⟨-, rfl⟩ := EStateM.Result.ok.inj h
          have hfind : find? { b with devices := b.devices.modify k (·.put offset data) } address' =
              b.find? address' := rfl
          unfold peek
          rw [hfind]
          cases hf' : b.find? address' with
          | none => rfl
          | some place' =>
            obtain ⟨k', offset'⟩ := place'
            simp only [readDevice, Array.getElem?_modify]
            by_cases hk : k = k'
            · subst hk
              have hother : ¬ (offset = offset' ∨ b.layout.extents[k]? = some none) :=
                fun hs => hshares ⟨k, offset, offset', hf, hf', hs⟩
              cases d with
              | ram r =>
                simpa [hd, Device.put, Device.read] using Ram.read_put hn fun he => hother (.inl he)
              | peripheral p => exact absurd (.inr (by simp [layout, hd, Device.extent])) hother
            · rw [if_neg hk]

theorem read_altered (address : Int) (b : Bus) : Altered as b (left (read address b)) := by
  cases h : read address b with
  | ok d t =>
    obtain ⟨-, rfl⟩ := read_eq_ok h
    exact ⟨rfl, fun _ _ => rfl⟩
  | error f t =>
    rw [left, read_eq_error h]
    exact Altered.refl as b

theorem write_altered (address data : Int) (b : Bus) :
    Altered [address] b (left (write address data b)) := by
  cases h : write address data b with
  | ok _ t =>
    obtain ⟨u, hp, rfl⟩ := write_eq_ok h
    have halt := poke_altered hp
    exact ⟨halt.layout, halt.peek⟩
  | error f t =>
    obtain rfl : t = b := (ends_write address data b).error h
    exact Altered.refl [address] t

end Bus

end SpriteVM
