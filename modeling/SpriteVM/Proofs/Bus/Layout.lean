import SpriteVM.Proofs.Outcome
import SpriteVM.Setup

namespace SpriteVM

def Device.extent : Device → Option Nat
  | ram r => some r.size
  | peripheral _ => none

@[simp] theorem Device.extent_put (d : Device) (offset data : Int) :
    (d.put offset data).extent = d.extent := by cases d <;> simp [put, extent]

@[simp] theorem Device.extent_clear (d : Device) : d.clear.extent = d.extent := by
  cases d <;> simp [clear, extent]

/-- The ranges of a bus, and for each device its size if it is memory. -/
structure Layout where
  ranges : List AddressRange
  extents : Array (Option Nat)
  deriving DecidableEq, Repr

/-- Nothing but memory is attached. -/
def Layout.MemoryOnly (L : Layout) : Prop :=
  ∀ r ∈ L.ranges, ∃ n, L.extents[r.device]? = some (some n)

instance decidableMemory (extent? : Option (Option Nat)) : Decidable (∃ n, extent? = some (some n)) :=
  match extent? with
  | some (some n) => isTrue ⟨n, rfl⟩
  | some none | none => isFalse nofun

instance (L : Layout) : Decidable L.MemoryOnly :=
  inferInstanceAs (Decidable (∀ r ∈ L.ranges, ∃ n, L.extents[r.device]? = some (some n)))

/-- One memory serves the addresses from 0 to 4095. -/
def Layout.OneMemory (L : Layout) : Prop :=
  ∃ k, L.ranges = [⟨0, 0xFFF, k⟩] ∧ L.extents[k]? = some (some 0x1000)

theorem Layout.OneMemory.memoryOnly {L : Layout} (h : L.OneMemory) : L.MemoryOnly := by
  obtain ⟨k, hr, he⟩ := h
  intro r hmem
  rw [hr, List.mem_singleton] at hmem
  exact ⟨0x1000, hmem ▸ he⟩

private theorem map_modify_extent (ds : Array Device) (k : Nat) {f : Device → Device}
    (hf : ∀ d, (f d).extent = d.extent) : (ds.modify k f).map Device.extent = ds.map Device.extent := by
  apply Array.ext_getElem?
  intro i
  by_cases h : k = i <;> cases hd : ds[i]? <;> simp [Array.getElem?_modify, h, hd, hf]

namespace Bus

def layout (b : Bus) : Layout := ⟨b.ranges, b.devices.map Device.extent⟩

/-- The byte at an address, zero where there is none. -/
def byte (b : Bus) (address : Int) : Int :=
  match b.peek address with
  | .ok data => data
  | .error _ => 0

@[simp] theorem byte_record (b : Bus) (a : Access) (address : Int) :
    (b.record a).byte address = b.byte address := rfl

theorem layout_clear (b : Bus) : b.clear.layout = b.layout := by
  have h (rs : List AddressRange) (ds : Array Device) :
      (rs.foldl (fun ds r => ds.modify r.device Device.clear) ds).map Device.extent =
        ds.map Device.extent := by
    induction rs generalizing ds with
    | nil => rfl
    | cons r rs ih => rw [List.foldl_cons, ih, map_modify_extent _ _ Device.extent_clear]
  simp only [layout, clear, h]

theorem ends_poke (address data : Int) (b : Bus) :
    Ends (poke address data) (fun _ t => t.layout = b.layout) (fun _ t => t = b) b := by
  unfold Ends poke writeDevice
  cases b.find? address with
  | none => rfl
  | some place =>
    obtain ⟨device, offset⟩ := place
    dsimp only
    cases b.devices[device]? with
    | none => rfl
    | some d =>
      dsimp only
      cases d.refusal? offset data with
      | some f => rfl
      | none =>
        simp only [layout, map_modify_extent _ _ fun d => d.extent_put offset data]

theorem ends_write (address data : Int) (b : Bus) :
    Ends (write address data) (fun _ t => t.layout = b.layout) (fun _ t => t = b) b := by
  have h := ends_poke address data b
  unfold Ends write
  cases hr : poke address data b with
  | ok a t =>
    change t.layout = b.layout
    exact h.ok hr
  | error f t => exact h.error hr

theorem ends_load (address : Int) (data : List UInt8) (b : Bus) :
    Ends (load address data) (fun _ t => t.layout = b.layout) (fun _ t => t.layout = b.layout) b := by
  induction data generalizing address b with
  | nil => rfl
  | cons d ds ih =>
    rw [load, ends_bind]
    refine (ends_poke address d.toNat b).imp (fun _ t ht => ?_) fun _ t ht => congrArg layout ht
    exact (ih (address + 1) t).imp (fun _ _ h => h.trans ht) fun _ _ h => h.trans ht

theorem devices_of_extents {b : Bus} {k n : Nat} (h : b.layout.extents[k]? = some (some n)) :
    ∃ r : Ram, b.devices[k]? = some (.ram r) ∧ r.size = n := by
  simp only [layout, Array.getElem?_map, Option.map_eq_some_iff] at h
  obtain ⟨d, hd, he⟩ := h
  cases d with
  | ram r => exact ⟨r, hd, Option.some.inj he⟩
  | peripheral p => simp [Device.extent] at he

theorem peek_byte {b : Bus} (hb : b.layout.MemoryOnly) {address data : Int}
    (h : b.peek address = .ok data) : 0 ≤ data ∧ data ≤ 255 := by
  unfold peek at h
  split at h
  · next device offset hf =>
    obtain ⟨r, hr, -, -, rfl, -⟩ := find?_eq_some hf
    obtain ⟨n, hn⟩ := hb r hr
    obtain ⟨ram, hd, -⟩ := devices_of_extents hn
    simp only [readDevice, hd, Device.read, Ram.read] at h
    split at h
    · obtain rfl := Except.ok.inj h
      have := ram.cell_nonneg offset.toNat
      have := ram.cell_lt offset.toNat
      omega
    · contradiction
  · contradiction

theorem byte_range {b : Bus} (hb : b.layout.MemoryOnly) (address : Int) :
    0 ≤ b.byte address ∧ b.byte address ≤ 255 := by
  unfold byte
  cases hp : b.peek address with
  | ok data => exact peek_byte hb hp
  | error f => simp

theorem ends_read {b : Bus} (hb : b.layout.MemoryOnly) (address : Int) :
    Ends (read address) (fun d t => (0 ≤ d ∧ d ≤ 255) ∧ t.layout = b.layout) (fun _ t => t = b) b := by
  unfold Ends read
  cases hp : b.peek address with
  | ok d => exact ⟨peek_byte hb hp, rfl⟩
  | error f => rfl

end Bus

end SpriteVM
