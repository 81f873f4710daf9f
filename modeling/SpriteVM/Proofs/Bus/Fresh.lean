import SpriteVM.Proofs.Bus.Layout
import SpriteVM.Proofs.View

namespace SpriteVM

namespace Device

/-- Memory of the same size that holds zeros; other devices are kept. -/
def zeroed : Device → Device
  | ram r => ram ⟨Array.replicate r.size 0, r.flagged⟩
  | peripheral p => peripheral p

variable {d e : Device}

theorem clear_eq_zeroed (d : Device) : d.clear = d.zeroed := by cases d <;> rfl

@[simp] theorem zeroed_zeroed (d : Device) : d.zeroed.zeroed = d.zeroed := by
  cases d <;> simp [zeroed, Ram.size]

theorem refusal?_zeroed (d : Device) (offset data : Int) :
    d.zeroed.refusal? offset data = d.refusal? offset data := by
  cases d <;> simp [zeroed, refusal?, Ram.refusal?, Ram.holds, Ram.sizeText, Ram.size]

theorem put_zeroed (h : d.zeroed = e.zeroed) (offset data : Int) :
    (d.put offset data).zeroed = (e.put offset data).zeroed := by
  cases d <;> cases e <;> simp_all [zeroed, put, Ram.put, Ram.size]

/-- Zeroed memory is read where it was read before, and every cell of it is zero. -/
theorem ram_read_zeroed (r : Ram) (offset : Int) :
    (ram r).zeroed.read offset = ((ram r).read offset).map fun _ => 0 := by
  have hcell : r.clear.cell offset.toNat = 0 := r.cell_clear _
  have hholds : r.clear.holds offset ↔ r.holds offset := by simp [Ram.holds]
  have htext : r.clear.sizeText = r.sizeText := by simp [Ram.sizeText, Ram.clear, Ram.size]
  change r.clear.read offset = (r.read offset).map fun _ => 0
  unfold Ram.read
  by_cases ho : r.holds offset
  · rw [if_pos (hholds.2 ho), if_pos ho, hcell]
    rfl
  · rw [if_neg fun h => ho (hholds.1 h), if_neg ho, htext]
    rfl

theorem ram_put_zeroed (r : Ram) (offset data : Int) :
    ((ram r).put offset data).zeroed = (ram r).zeroed := by simp [zeroed, put, Ram.put, Ram.size]

end Device

namespace Bus

/-- What the device with this number was when new. Devices that serve no range stay what they are. -/
def asNew (ranges : List AddressRange) (k : Nat) (d : Device) : Device :=
  if ranges.any fun r => r.device = k then d.zeroed else d

/-- The bus as new. -/
def fresh (b : Bus) : Bus := ⟨b.devices.mapIdx (asNew b.ranges), b.ranges, []⟩

variable {b t : Bus} {address offset data : Int} {k : Nat} {d : Device}

theorem device_fresh (b : Bus) (k : Nat) : b.fresh.devices[k]? = b.devices[k]?.map (asNew b.ranges k) := by
  simp [fresh]

theorem fresh_eq (hr : b.ranges = t.ranges)
    (hd : ∀ k : Nat, b.devices[k]?.map (asNew b.ranges k) = t.devices[k]?.map (asNew t.ranges k)) :
    b.fresh = t.fresh := by
  have hdevices : b.fresh.devices = t.fresh.devices :=
    Array.ext_getElem? fun k => by rw [device_fresh, device_fresh, hd k]
  calc b.fresh = ⟨b.fresh.devices, b.ranges, []⟩ := rfl
    _ = ⟨t.fresh.devices, t.ranges, []⟩ := by rw [hdevices, hr]

theorem device_of_fresh_eq (h : b.fresh = t.fresh) (k : Nat) :
    b.devices[k]?.map (asNew b.ranges k) = t.devices[k]?.map (asNew t.ranges k) := by
  rw [← device_fresh, ← device_fresh, h]

theorem ranges_of_fresh_eq (h : b.fresh = t.fresh) : b.ranges = t.ranges :=
  (congrArg Bus.ranges h : b.fresh.ranges = t.fresh.ranges)

theorem find?_of_fresh_eq (h : b.fresh = t.fresh) (address : Int) :
    b.find? address = t.find? address := by
  rw [find?, find?, ranges_of_fresh_eq h]

/-- A device that is found serves a range. -/
theorem asNew_found (hf : b.find? address = some (k, offset)) (d : Device) :
    asNew b.ranges k d = d.zeroed := by
  obtain ⟨r, hr, -, -, rfl, -⟩ := find?_eq_some hf
  exact if_pos (List.any_eq_true.2 ⟨r, hr, by simp⟩)

@[simp] theorem fresh_fresh (b : Bus) : b.fresh.fresh = b.fresh := by
  refine fresh_eq rfl fun k => ?_
  rw [device_fresh]
  cases b.devices[k]? with
  | none => rfl
  | some d =>
    simp only [Option.map_some, Option.some.injEq, asNew, fresh]
    split <;> simp_all

private theorem modify_clear (rs : List AddressRange) (ds : Array Device) (k : Nat) :
    (rs.foldl (fun ds r => ds.modify r.device Device.clear) ds)[k]? =
      ds[k]?.map fun d => if rs.any fun r => r.device = k then d.zeroed else d := by
  induction rs generalizing ds with
  | nil => simp
  | cons r rs ih =>
    rw [List.foldl_cons, ih, Array.getElem?_modify]
    by_cases hr : r.device = k
    · cases ds[k]? <;> simp [hr, Device.clear_eq_zeroed]
    · simp [hr]

/-- A cleared bus is as new. -/
theorem clear_eq_fresh (b : Bus) : b.clear = b.fresh := by
  have hdevices : b.clear.devices = b.fresh.devices := by
    refine Array.ext_getElem? fun k => ?_
    rw [device_fresh]
    exact modify_clear b.ranges b.devices k
  calc b.clear = ⟨b.clear.devices, b.ranges, []⟩ := rfl
    _ = b.fresh := by rw [hdevices]; rfl

/-- All that can be read from a new bus is zero. -/
theorem peek_fresh (hb : b.layout.MemoryOnly) (address : Int) :
    b.fresh.peek address = (b.peek address).map fun _ => 0 := by
  have hfind : b.fresh.find? address = b.find? address := rfl
  rw [peek, peek, hfind]
  cases hf : b.find? address with
  | none => rfl
  | some place =>
    obtain ⟨k, offset⟩ := place
    obtain ⟨r, hr, -, -, rfl, -⟩ := find?_eq_some hf
    obtain ⟨n, hn⟩ := hb r hr
    obtain ⟨ram, hd, -⟩ := devices_of_extents hn
    have hnew : b.fresh.devices[r.device]? = some (Device.ram ram).zeroed := by
      rw [device_fresh, hd, Option.map_some, asNew_found hf]
    simp only [readDevice, hd, hnew]
    exact Device.ram_read_zeroed ram offset

/-- Where nothing but memory is attached, a write does not change what the bus was when new. -/
theorem fresh_poke (hb : b.layout.MemoryOnly) (h : poke address data b = .ok () t) :
    t.fresh = b.fresh := by
  unfold poke at h
  cases hf : b.find? address with
  | none => simp [hf] at h
  | some place =>
    obtain ⟨k, offset⟩ := place
    obtain ⟨r, hr, -, -, rfl, -⟩ := find?_eq_some hf
    obtain ⟨n, hn⟩ := hb r hr
    obtain ⟨ram, hd, -⟩ := devices_of_extents hn
    simp only [hf, writeDevice, hd] at h
    split at h
    · contradiction
    · obtain ⟨-, rfl⟩ := EStateM.Result.ok.inj h
      refine fresh_eq rfl fun j => ?_
      by_cases hj : r.device = j
      · subst hj
        simp [Array.getElem?_modify, hd, asNew_found hf, Device.ram_put_zeroed]
      · simp [Array.getElem?_modify, hj]

/-- The same write to the same place keeps buses alike that are alike when new. -/
theorem fresh_put (h : b.fresh = t.fresh) (hf : b.find? address = some (k, offset)) (data : Int) :
    fresh { b with devices := b.devices.modify k (·.put offset data) } =
      fresh { t with devices := t.devices.modify k (·.put offset data) } := by
  have hranges := ranges_of_fresh_eq h
  have hf' : t.find? address = some (k, offset) := (find?_of_fresh_eq h address).symm.trans hf
  refine fresh_eq hranges fun j => ?_
  have hj := device_of_fresh_eq h j
  simp only [Array.getElem?_modify]
  by_cases hk : k = j
  · subst hk
    cases hb : b.devices[k]? <;> cases ht : t.devices[k]? <;>
      simp only [hb, ht, Option.map_none, Option.map_some, Option.some.injEq, reduceCtorEq] at hj
    · simp
    · rw [asNew_found hf, asNew_found hf'] at hj
      have hput := Device.put_zeroed hj offset data
      simp [asNew_found hf, asNew_found hf', hput]
  · simpa [hk] using hj

theorem poke_blind (address data : Int) : Blind fresh (poke address data) := by
  intro b t h
  have hfind := find?_of_fresh_eq h address
  unfold poke
  rw [← hfind]
  cases hf : b.find? address with
  | none => exact congrArg (Prod.mk _) h
  | some place =>
    obtain ⟨k, offset⟩ := place
    have hk := device_of_fresh_eq h k
    dsimp only
    unfold writeDevice
    cases hb : b.devices[k]? <;> cases ht : t.devices[k]? <;>
      simp only [hb, ht, Option.map_none, Option.map_some, Option.some.injEq, reduceCtorEq] at hk
    · exact congrArg (Prod.mk _) h
    · next d e =>
      rw [asNew_found hf, asNew_found (hfind ▸ hf)] at hk
      have hrefusal : d.refusal? offset data = e.refusal? offset data := by
        rw [← d.refusal?_zeroed, hk, e.refusal?_zeroed]
      dsimp only
      rw [hrefusal]
      cases e.refusal? offset data with
      | some f => exact congrArg (Prod.mk _) h
      | none => exact congrArg (Prod.mk _) (fresh_put h hf data)

theorem load_blind (address : Int) (data : List UInt8) : Blind fresh (load address data) := by
  induction data generalizing address with
  | nil => exact Blind.pure ()
  | cons d ds ih => exact (poke_blind address d.toNat).bind fun _ => ih (address + 1)

end Bus

end SpriteVM
