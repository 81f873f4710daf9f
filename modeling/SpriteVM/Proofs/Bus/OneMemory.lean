import SpriteVM.Proofs.Bus.Layout

namespace SpriteVM

namespace Bus

/-- The addresses that the one memory serves. -/
def Inside (address : Int) : Prop := 0 ≤ address ∧ address ≤ 0xFFF

variable {b : Bus} {address data : Int}

theorem beyond_of_outside (ha : 0 ≤ address) (h : ¬ Inside address) : 0xFFF < address := by
  unfold Inside at h
  omega

theorem find?_inside (hb : b.layout.OneMemory) (ha : Inside address) :
    ∃ k r, b.find? address = some (k, address) ∧ b.devices[k]? = some (.ram r) ∧ r.size = 0x1000 := by
  obtain ⟨k, hr, he⟩ := hb
  obtain ⟨r, hd, hs⟩ := devices_of_extents he
  unfold Inside at ha
  have hr : b.ranges = [⟨0, 0xFFF, k⟩] := hr
  exact ⟨k, r, by simp [find?, hr, ha], hd, hs⟩

theorem find?_outside (hb : b.layout.OneMemory) (ha : ¬ Inside address) : b.find? address = none := by
  obtain ⟨k, hr, -⟩ := hb
  unfold Inside at ha
  have hr : b.ranges = [⟨0, 0xFFF, k⟩] := hr
  simp [find?, hr]
  omega

theorem peek_inside (hb : b.layout.OneMemory) (ha : Inside address) :
    b.peek address = .ok (b.byte address) := by
  obtain ⟨k, r, hf, hd, hs⟩ := find?_inside hb ha
  have hh : r.holds address := by
    unfold Inside at ha
    unfold Ram.holds
    omega
  simp [byte, peek, hf, readDevice, hd, Device.read, Ram.read, hh]

theorem peek_outside (hb : b.layout.OneMemory) (ha : ¬ Inside address) :
    b.peek address = .error (.unmapped address) := by
  simp [peek, find?_outside hb ha]

theorem poke_inside (hb : b.layout.OneMemory) (ha : Inside address)
    (hd : 0 ≤ data ∧ data ≤ 255) : ∃ t, poke address data b = .ok () t := by
  obtain ⟨k, r, hf, hr, hs⟩ := find?_inside hb ha
  have hn : r.refusal? address data = none := by
    rw [Ram.refusal?_eq_none]
    unfold Inside at ha
    unfold Ram.holds
    omega
  simp [poke, hf, writeDevice, hr, Device.refusal?, hn]

theorem poke_outside (hb : b.layout.OneMemory) (ha : ¬ Inside address) :
    poke address data b = .error (.unmapped address) b := by
  simp [poke, find?_outside hb ha]

theorem ends_read_one (hb : b.layout.OneMemory) (address : Int) :
    Ends (read address)
      (fun d t => Inside address ∧ d = b.byte address ∧ t = b.record ⟨.read, address, d⟩)
      (fun f t => ¬ Inside address ∧ f = .unmapped address ∧ t = b) b := by
  unfold Ends read
  by_cases ha : Inside address
  · rw [peek_inside hb ha]
    exact ⟨ha, rfl, rfl⟩
  · rw [peek_outside hb ha]
    exact ⟨ha, rfl, rfl⟩

theorem ends_write_one (hb : b.layout.OneMemory) (address : Int) (hd : 0 ≤ data ∧ data ≤ 255) :
    Ends (write address data) (fun _ t => Inside address ∧ t.layout = b.layout)
      (fun f t => ¬ Inside address ∧ f = .unmapped address ∧ t = b) b := by
  by_cases ha : Inside address
  · obtain ⟨t, ht⟩ := poke_inside hb ha hd
    have hl := (ends_poke address data b).ok ht
    simp only [Ends, write, ht]
    exact ⟨ha, hl⟩
  · simp only [Ends, write, poke_outside hb ha]
    exact ⟨ha, trivial, trivial⟩

theorem load_inside (hb : b.layout.OneMemory) (ha : 0 ≤ address) (bytes : List UInt8)
    (hl : address + bytes.length ≤ 0x1000) : ∃ t, load address bytes b = .ok () t := by
  induction bytes generalizing address b with
  | nil => exact ⟨b, rfl⟩
  | cons d ds ih =>
    rw [List.length_cons] at hl
    have hd := d.toNat_lt
    have hin : Inside address := ⟨ha, by omega⟩
    have hbyte : 0 ≤ (d.toNat : Int) ∧ (d.toNat : Int) ≤ 255 := by omega
    obtain ⟨t, ht⟩ := poke_inside hb hin hbyte
    have hlt := (ends_poke address d.toNat b).ok ht
    have hnext : 0 ≤ address + 1 := by omega
    obtain ⟨u, hu⟩ := ih (b := t) (hlt ▸ hb) hnext (by omega)
    refine ⟨u, ?_⟩
    change EStateM.bind (poke address d.toNat) (fun _ => load (address + 1) ds) b = _
    simp only [EStateM.bind, ht, hu]

/-- One memory of zeros, as a machine is set up with. -/
def blank : Bus := ⟨#[.ram (Ram.zeroed 0x1000)], [⟨0, 0xFFF, 0⟩], []⟩

theorem memoryBus_eq : Setup.memoryBus = .ok blank := by
  simp [Setup.memoryBus, ofRanges, attachMemory, Ram.ofSize, State.memorySize, attach, addDevice,
    empty, Device.misfit?, bind, Except.bind, pure, Except.pure, blank]

theorem blank_oneMemory : blank.layout.OneMemory :=
  ⟨0, rfl, by simp [blank, layout, Device.extent]⟩

end Bus

end SpriteVM
