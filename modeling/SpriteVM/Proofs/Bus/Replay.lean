import Mathlib.Logic.Function.Basic
import SpriteVM.Proofs.Bus.OneMemory

namespace SpriteVM

/-- A record leads from one memory to another: each byte read is the one that memory holds by then,
and a write changes the byte at its address and no other. -/
def Replays : List Access → (Int → Int) → (Int → Int) → Prop
  | [], before, after => after = before
  | ⟨.read, address, data⟩ :: rest, before, after =>
    before address = data ∧ Replays rest before after
  | ⟨.write, address, data⟩ :: rest, before, after =>
    Replays rest (Function.update before address data) after

section Replays

variable {l l' : List Access} {before between after : Int → Int}

theorem Replays.append (h : Replays l before between) (h' : Replays l' between after) :
    Replays (l ++ l') before after := by
  induction l generalizing before with
  | nil =>
    have he : between = before := h
    rwa [he] at h'
  | cons a l ih =>
    obtain ⟨kind, address, data⟩ := a
    cases kind with
    | read => exact ⟨h.1, ih h.2⟩
    | write =>
      have hrest : Replays l (Function.update before address data) between := h
      exact ih hrest

/-- A byte that the record does not write stays. -/
theorem Replays.unwritten {address : Int} (h : Replays l before after)
    (hw : ∀ data, ⟨.write, address, data⟩ ∉ l) : after address = before address := by
  induction l generalizing before with
  | nil => exact congrFun h address
  | cons a l ih =>
    have hrest : ∀ data, ⟨.write, address, data⟩ ∉ l :=
      fun data hm => hw data (List.mem_cons_of_mem a hm)
    obtain ⟨kind, place, data⟩ := a
    cases kind with
    | read => exact ih h.2 hrest
    | write =>
      have hne : address ≠ place := by
        rintro rfl
        exact hw data List.mem_cons_self
      have hplay : Replays l (Function.update before place data) after := h
      rw [ih hplay hrest, Function.update_of_ne hne]

end Replays

namespace Bus

variable {b t u : Bus} {address data : Int}

theorem byte_of_peek (h : b.peek address = .ok data) : b.byte address = data := by
  rw [byte, h]

theorem read_eq_ok (h : read address b = .ok data t) :
    b.byte address = data ∧ t = b.record ⟨.read, address, data⟩ := by
  unfold read at h
  cases hp : b.peek address with
  | error f => simp [hp] at h
  | ok d =>
    rw [hp] at h
    obtain ⟨rfl, rfl⟩ := EStateM.Result.ok.inj h
    exact ⟨byte_of_peek hp, rfl⟩

theorem read_eq_error {f : Fault} (h : read address b = .error f t) : t = b := by
  unfold read at h
  cases hp : b.peek address with
  | ok d => simp [hp] at h
  | error g =>
    rw [hp] at h
    exact (EStateM.Result.error.inj h).2.symm

theorem poke_log (h : poke address data b = .ok () t) : t.log = b.log := by
  unfold poke at h
  cases hf : b.find? address with
  | none => simp [hf] at h
  | some place =>
    obtain ⟨device, offset⟩ := place
    simp only [hf, writeDevice] at h
    split at h
    · contradiction
    · split at h
      · contradiction
      · obtain ⟨-, rfl⟩ := EStateM.Result.ok.inj h
        rfl

theorem write_eq_ok (h : write address data b = .ok () t) :
    ∃ u, poke address data b = .ok () u ∧ t = u.record ⟨.write, address, data⟩ := by
  unfold write at h
  cases hp : poke address data b with
  | error g u => simp [hp] at h
  | ok x u =>
    rw [hp] at h
    obtain ⟨-, rfl⟩ := EStateM.Result.ok.inj h
    exact ⟨u, rfl, rfl⟩

theorem read_log (h : read address b = .ok data t) :
    t.log = b.log ++ [⟨.read, address, b.byte address⟩] ∧ t.byte = b.byte := by
  obtain ⟨rfl, rfl⟩ := read_eq_ok h
  exact ⟨rfl, rfl⟩

theorem write_log (h : write address data b = .ok () t) :
    t.log = b.log ++ [⟨.write, address, data⟩] := by
  obtain ⟨u, hp, rfl⟩ := write_eq_ok h
  exact congrArg (· ++ _) (poke_log hp)

instance (address : Int) : Decidable (Inside address) := inferInstanceAs (Decidable (_ ∧ _))

/-- The one memory, with the number of its device. -/
theorem one_memory (hb : b.layout.OneMemory) : ∃ k r, b.ranges = [⟨0, 0xFFF, k⟩] ∧
    b.devices[k]? = some (.ram r) ∧ r.size = 0x1000 := by
  obtain ⟨k, hr, he⟩ := hb
  obtain ⟨r, hd, hs⟩ := devices_of_extents he
  exact ⟨k, r, hr, hd, hs⟩

section OneMemory

variable {k : Nat} {r : Ram} (hr : b.ranges = [⟨0, 0xFFF, k⟩]) (hd : b.devices[k]? = some (.ram r))
  (hs : r.size = 0x1000)

include hr

theorem find?_one (address : Int) :
    b.find? address = if Inside address then some (k, address) else none := by
  by_cases ha : Inside address
  · rw [if_pos ha]
    obtain ⟨hlo, hhi⟩ := ha
    simp [find?, hr, hlo, hhi]
  · rw [if_neg ha]
    unfold Inside at ha
    simp [find?, hr]
    omega

include hd hs

theorem byte_one (address : Int) :
    b.byte address = if Inside address then r.cell address.toNat else 0 := by
  rw [byte, peek, find?_one hr]
  by_cases ha : Inside address
  · have hh : r.holds address := by
      unfold Inside at ha
      unfold Ram.holds
      omega
    simp [ha, readDevice, hd, Device.read, Ram.read, hh]
  · simp [ha]

/-- A write that the one memory takes changes the byte at its address. -/
theorem byte_put (ha : Inside address) (hdata : 0 ≤ data ∧ data ≤ 255) :
    byte { b with devices := b.devices.modify k (·.put address data) } =
      Function.update b.byte address data := by
  have hput : (b.devices.modify k (·.put address data))[k]? =
      some (.ram (r.put address.toNat data)) := by
    simp [Array.getElem?_modify, hd, Device.put]
  have hsize : (r.put address.toNat data).size = 0x1000 := by rw [Ram.size_put, hs]
  have hk : address.toNat < r.size := by
    unfold Inside at ha
    omega
  funext a
  have hafter := byte_one (b := { b with devices := b.devices.modify k (·.put address data) }) hr hput
    hsize a
  have hbefore := byte_one hr hd hs a
  rw [hafter, r.cell_put _ _ hdata hk]
  by_cases he : a = address
  · subst he
    rw [if_pos ha, if_pos rfl, Function.update_self]
  · rw [Function.update_of_ne he, hbefore]
    by_cases hin : Inside a
    · have hne : ¬ address.toNat = a.toNat := by
        unfold Inside at ha hin
        omega
      rw [if_pos hin, if_pos hin, if_neg hne]
    · rw [if_neg hin, if_neg hin]

end OneMemory

theorem poke_byte (hb : b.layout.OneMemory) (h : poke address data b = .ok () t) :
    t.byte = Function.update b.byte address data := by
  obtain ⟨k, r, hr, hd, hs⟩ := one_memory hb
  rw [poke, find?_one hr] at h
  by_cases ha : Inside address
  · simp only [if_pos ha, writeDevice, hd, Device.refusal?] at h
    cases hf : r.refusal? address data with
    | some f => simp [hf] at h
    | none =>
      have hdata := ((r.refusal?_eq_none address data).1 hf).2
      rw [hf] at h
      obtain ⟨-, rfl⟩ := EStateM.Result.ok.inj h
      exact byte_put hr hd hs ha hdata
  · simp [ha] at h

/-- What was added to the record since `b` explains the memory of `t`. -/
structure Explains (b t : Bus) : Prop where
  layout : t.layout = b.layout
  record : ∃ l, t.log = b.log ++ l ∧ Replays l b.byte t.byte

theorem Explains.refl (b : Bus) : Explains b b := ⟨rfl, [], by simp, rfl⟩

theorem Explains.trans (h : Explains b t) (h' : Explains t u) : Explains b u := by
  obtain ⟨hl, l, hlog, hplay⟩ := h
  obtain ⟨hl', l', hlog', hplay'⟩ := h'
  exact ⟨hl'.trans hl, l ++ l', by rw [hlog', hlog, List.append_assoc], hplay.append hplay'⟩

theorem read_explains (address : Int) (b : Bus) :
    Ends (read address) (fun _ t => Explains b t) (fun _ t => Explains b t) b := by
  refine Ends.of_forall (fun data t h => ?_) fun f t h => ?_
  · obtain ⟨hdata, rfl⟩ := read_eq_ok h
    exact ⟨rfl, [⟨.read, address, data⟩], rfl, hdata, rfl⟩
  · obtain rfl := read_eq_error h
    exact Explains.refl t

theorem write_explains (hb : b.layout.OneMemory) (address data : Int) :
    Ends (write address data) (fun _ t => Explains b t) (fun _ t => Explains b t) b := by
  have hlayout := ends_write address data b
  refine Ends.of_forall (fun _ t h => ?_) fun f t h => ?_
  · refine ⟨hlayout.ok h, [⟨.write, address, data⟩], write_log h, ?_⟩
    obtain ⟨u, hp, rfl⟩ := write_eq_ok h
    exact (poke_byte hb hp :)
  · obtain rfl := hlayout.error h
    exact Explains.refl t

end Bus

end SpriteVM
