import SpriteVM.Proofs.Bus.Layout

namespace SpriteVM

namespace AddressRange

def Holds (r : AddressRange) (address : Int) : Prop := r.first ≤ address ∧ address ≤ r.last

instance (r : AddressRange) (address : Int) : Decidable (r.Holds address) :=
  inferInstanceAs (Decidable (_ ∧ _))

/-- Memory has a cell for each address of the range. -/
def Fills (r : AddressRange) : Device → Prop
  | .ram memory => (memory.size : Int) = r.last - r.first + 1
  | .peripheral _ => True

instance (r : AddressRange) : DecidablePred r.Fills
  | .ram _ => inferInstanceAs (Decidable (_ = _))
  | .peripheral _ => inferInstanceAs (Decidable True)

/-- The range is in order, its device is there, and memory fills it. -/
def Fits (devices : Array Device) (r : AddressRange) : Prop :=
  (0 ≤ r.first ∧ r.first ≤ r.last) ∧ ∃ d, devices[r.device]? = some d ∧ r.Fills d

instance (devices : Array Device) : DecidablePred (Fits devices) :=
  fun _ => inferInstanceAs (Decidable (_ ∧ _))

end AddressRange

/-- The earliest range of a list that holds the address. -/
def Earliest (ranges : List AddressRange) (address : Int) (r : AddressRange) : Prop :=
  ∃ before after, ranges = before ++ r :: after ∧ r.Holds address ∧ ∀ q ∈ before, ¬ q.Holds address

/-- No range of a list holds the address. -/
def Unheld (ranges : List AddressRange) (address : Int) : Prop := ∀ r ∈ ranges, ¬ r.Holds address

instance (ranges : List AddressRange) (address : Int) : Decidable (Unheld ranges address) :=
  inferInstanceAs (Decidable (∀ r ∈ ranges, ¬ r.Holds address))

theorem earliest_or_unheld (ranges : List AddressRange) (address : Int) :
    (∃ r, Earliest ranges address r) ∨ Unheld ranges address := by
  induction ranges with
  | nil => exact .inr nofun
  | cons r ranges ih =>
    by_cases hr : r.Holds address
    · exact .inl ⟨r, [], ranges, rfl, hr, nofun⟩
    · obtain ⟨q, before, after, rfl, hq, hbefore⟩ | hunheld := ih
      · exact .inl ⟨q, r :: before, after, rfl, hq, List.forall_mem_cons.2 ⟨hr, hbefore⟩⟩
      · exact .inr (List.forall_mem_cons.2 ⟨hr, hunheld⟩)

namespace Bus

variable {b t : Bus} {r q : AddressRange} {address data : Int} {requests : List AddressRange}

theorem find?_of_earliest (h : Earliest b.ranges address r) :
    b.find? address = some (r.device, address - r.first) := by
  obtain ⟨before, after, hranges, hr, hbefore⟩ := h
  have hfirst : b.ranges.find? (fun r => r.first ≤ address ∧ address ≤ r.last) = some r := by
    refine List.find?_eq_some_iff_append.2 ⟨decide_eq_true hr, before, after, hranges, fun q hq => ?_⟩
    have hq : ¬ (q.first ≤ address ∧ address ≤ q.last) := hbefore q hq
    rw [decide_eq_false hq, Bool.not_false]
  rw [find?, hfirst, Option.map_some]

theorem find?_of_unheld (h : Unheld b.ranges address) : b.find? address = none := by
  have hnone : b.ranges.find? (fun r => r.first ≤ address ∧ address ≤ r.last) = none :=
    List.find?_eq_none.2 fun r hr hfound => h r hr (of_decide_eq_true hfound)
  rw [find?, hnone, Option.map_none]

section Attach

end Attach

/-- Every range of the bus fits its device. -/
def Fitted (b : Bus) : Prop := ∀ r ∈ b.ranges, r.Fits b.devices

instance (b : Bus) : Decidable b.Fitted :=
  inferInstanceAs (Decidable (∀ r ∈ b.ranges, r.Fits b.devices))

/-- The range serves the address: each access goes to its device, at the offset of the address in it. -/
structure Serves (b : Bus) (r : AddressRange) (address : Int) : Prop where
  read : ∃ d data, b.devices[r.device]? = some d ∧ d.read (address - r.first) = .ok data ∧
    b.peek address = .ok data ∧ Bus.read address b = .ok data (b.record ⟨.read, address, data⟩)
  write : ∀ data, 0 ≤ data ∧ data ≤ 255 → Bus.write address data b =
    .ok () (Bus.record ⟨.write, address, data⟩
      { b with devices := b.devices.modify r.device (·.put (address - r.first) data) })

/-- A device that fills its range answers at every address of the range, and takes every byte. -/
theorem device_answers {d : Device} (hd : r.Fills d) (ha : r.Holds address) :
    (∃ data, d.read (address - r.first) = .ok data) ∧
      ∀ data, d.refusal? (address - r.first) data = none ∨
        ¬ (0 ≤ data ∧ data ≤ 255) ∧ d.refusal? (address - r.first) data = some (.notByte data) := by
  cases d with
  | peripheral p => exact ⟨⟨_, rfl⟩, fun _ => .inl rfl⟩
  | ram memory =>
    have hsize : (memory.size : Int) = r.last - r.first + 1 := hd
    have hholds : memory.holds (address - r.first) := by
      unfold AddressRange.Holds at ha
      unfold Ram.holds
      omega
    refine ⟨⟨_, if_pos hholds⟩, fun data => ?_⟩
    by_cases hdata : 0 ≤ data ∧ data ≤ 255
    · exact .inl ((memory.refusal?_eq_none _ _).2 ⟨hholds, hdata⟩)
    · refine .inr ⟨hdata, ?_⟩
      rw [Device.refusal?, Ram.refusal?, if_neg (not_not_intro hholds), if_neg hdata]

section Access

variable (hb : b.Fitted)
include hb

theorem Fitted.found (hr : Earliest b.ranges address r) :
    b.find? address = some (r.device, address - r.first) ∧
      ∃ d, b.devices[r.device]? = some d ∧ r.Fills d ∧ r.Holds address := by
  refine ⟨find?_of_earliest hr, ?_⟩
  obtain ⟨before, after, hranges, ha, -⟩ := hr
  obtain ⟨-, d, hd, hfills⟩ := hb r (by simp [hranges])
  exact ⟨d, hd, hfills, ha⟩

theorem Fitted.serves (hr : Earliest b.ranges address r) : b.Serves r address := by
  obtain ⟨hfind, d, hd, hfills, ha⟩ := hb.found hr
  obtain ⟨⟨data, hread⟩, htakes⟩ := device_answers hfills ha
  have hpeek : b.peek address = .ok data := by simp only [peek, hfind, readDevice, hd, hread]
  refine ⟨⟨d, data, hd, hread, hpeek, by rw [Bus.read, hpeek]⟩, fun byte hbyte => ?_⟩
  have hnone : d.refusal? (address - r.first) byte = none :=
    (htakes byte).resolve_right fun h => h.1 hbyte
  simp only [Bus.write, poke, hfind, writeDevice, hd, hnone]

end Access

end Bus

open Bus

end SpriteVM
