import Mathlib.Data.Nat.Find
import SpriteVM.Proofs.Bus.Record
import SpriteVM.Proofs.Bus.Resolution

namespace SpriteVM

namespace Bus

variable {b t u : Bus} {r : AddressRange} {address data : Int} {d : UInt8} {ds : List UInt8}

/-- Some range holds the address. -/
def Mapped (b : Bus) (address : Int) : Prop := ∃ r ∈ b.ranges, r.Holds address

instance (b : Bus) (address : Int) : Decidable (b.Mapped address) :=
  inferInstanceAs (Decidable (∃ r ∈ b.ranges, r.Holds address))

theorem mapped_congr (h : t.layout = b.layout) : t.Mapped address ↔ b.Mapped address := by
  have hranges : t.ranges = b.ranges := congrArg Layout.ranges h
  rw [Mapped, Mapped, hranges]

theorem unheld_of_not_mapped (h : ¬ b.Mapped address) : Unheld b.ranges address :=
  fun r hr ha => h ⟨r, hr, ha⟩

theorem Mapped.earliest (h : b.Mapped address) : ∃ r, Earliest b.ranges address r := by
  obtain ⟨q, hq, ha⟩ := h
  exact (earliest_or_unheld b.ranges address).resolve_right fun hunheld => hunheld q hq ha

theorem fitted_congr (h : t.layout = b.layout) (hb : b.Fitted) : t.Fitted := by
  intro r hr
  have hranges : t.ranges = b.ranges := congrArg Layout.ranges h
  obtain ⟨horder, d, hd, hfills⟩ := hb r (hranges ▸ hr)
  refine ⟨horder, ?_⟩
  have hextent : t.layout.extents[r.device]? = some d.extent := by
    rw [h]
    simp [layout, hd]
  simp only [layout, Array.getElem?_map, Option.map_eq_some_iff] at hextent
  obtain ⟨e, he, hsize⟩ := hextent
  refine ⟨e, he, ?_⟩
  cases d <;> cases e <;> simp_all [Device.extent, AddressRange.Fills]

section Fitted

variable (hb : b.Fitted)

include hb

theorem Fitted.poke_mapped (ha : b.Mapped address) (hdata : 0 ≤ data ∧ data ≤ 255) :
    ∃ t, poke address data b = .ok () t := by
  obtain ⟨r, hr⟩ := ha.earliest
  obtain ⟨hfind, d, hd, hfills, hholds⟩ := hb.found hr
  have hnone : d.refusal? (address - r.first) data = none :=
    ((device_answers hfills hholds).2 data).resolve_right fun h => h.1 hdata
  simp [poke, hfind, writeDevice, hd, hnone]

theorem Fitted.peek_mapped (ha : b.Mapped address) : ∃ data, b.peek address = .ok data := by
  obtain ⟨r, hr⟩ := ha.earliest
  obtain ⟨d, data, -, -, hpeek, -⟩ := (hb.serves hr).read
  exact ⟨data, hpeek⟩

end Fitted

theorem peek_not_mapped (ha : ¬ b.Mapped address) : b.peek address = .error (.unmapped address) := by
  simp only [peek, find?_of_unheld (unheld_of_not_mapped ha)]

theorem poke_not_mapped (ha : ¬ b.Mapped address) (data : Int) :
    poke address data b = .error (.unmapped address) b := by
  simp only [poke, find?_of_unheld (unheld_of_not_mapped ha)]

theorem address_succ (address : Int) (i : Nat) : address + 1 + i = address + (i + 1 : Nat) := by omega

theorem byte_of_uint8 (d : UInt8) : 0 ≤ (d.toNat : Int) ∧ (d.toNat : Int) ≤ 255 := by
  have hlt := d.toNat_lt
  omega

/-- A write changes the cell that the address finds, and no other. -/
theorem poke_cell (hb : b.layout.MemoryOnly) (h : poke address data b = .ok () t) (k : Nat)
    (offset : Int) : t.readDevice k offset =
      if b.find? address = some (k, offset) then .ok data else b.readDevice k offset := by
  obtain ⟨k', offset', r, hf, hd, hn, rfl⟩ := poke_memory hb h
  rw [hf]
  by_cases hk : k' = k
  · subst hk
    by_cases ho : offset' = offset
    · subst ho
      simpa [readDevice, Array.getElem?_modify, hd, Device.put, Device.read] using Ram.read_put_self hn
    · simpa [readDevice, Array.getElem?_modify, hd, Device.put, Device.read, ho] using
        Ram.read_put hn ho
  · simp [readDevice, Array.getElem?_modify, hk]

end Bus

/-- From `b` to `t` these bytes were stored at an address and those after it: a cell holds the last of
them that went to it, and a cell that none went to is as before. Nothing was recorded. -/
structure Stored (b : Bus) (address : Int) (data : List UInt8) (t : Bus) : Prop where
  layout : t.layout = b.layout
  log : t.log = b.log
  last : ∀ (i : Nat) d k offset, data[i]? = some d → b.find? (address + i) = some (k, offset) →
    (∀ j < data.length, i < j → b.find? (address + j) ≠ some (k, offset)) →
    t.readDevice k offset = .ok d.toNat
  kept : ∀ k offset, (∀ i < data.length, b.find? (address + i) ≠ some (k, offset)) →
    t.readDevice k offset = b.readDevice k offset

namespace Stored

open Bus

variable {b t u : Bus} {address : Int} {d : UInt8} {data ds : List UInt8}

theorem nil (b : Bus) (address : Int) : Stored b address [] b where
  layout := rfl
  log := rfl
  last := nofun
  kept := fun _ _ _ => rfl

theorem cons (hb : b.layout.MemoryOnly) (h : poke address d.toNat b = .ok () t)
    (hrest : Stored t (address + 1) ds u) : Stored b address (d :: ds) u := by
  have hlayout : t.layout = b.layout := (ends_poke address d.toNat b).ok h
  have hnext (i : Nat) : t.find? (address + 1 + i) = b.find? (address + (i + 1 : Nat)) := by
    rw [find?_congr hlayout, address_succ]
  constructor
  case layout => exact hrest.layout.trans hlayout
  case log => exact hrest.log.trans (poke_log h)
  case last =>
    intro i e k offset hi hf hlater
    cases i with
    | zero =>
      obtain rfl : d = e := by simpa using hi
      have hfirst : b.find? address = some (k, offset) := by simpa using hf
      have hnone (j : Nat) (hj : j < ds.length) : t.find? (address + 1 + j) ≠ some (k, offset) := by
        rw [hnext]
        exact hlater (j + 1) (by simpa using hj) (by omega)
      rw [hrest.kept k offset hnone, poke_cell hb h, if_pos hfirst]
    | succ i =>
      have hi : ds[i]? = some e := by simpa using hi
      refine hrest.last i e k offset hi (by rw [hnext]; exact hf) fun j hj hij => ?_
      rw [hnext]
      exact hlater (j + 1) (by simpa using hj) (by omega)
  case kept =>
    intro k offset hnone
    have hfirst : b.find? address ≠ some (k, offset) := by simpa using hnone 0 (by simp)
    have hrestNone (j : Nat) (hj : j < ds.length) : t.find? (address + 1 + j) ≠ some (k, offset) := by
      rw [hnext]
      exact hnone (j + 1) (by simpa using hj)
    rw [hrest.kept k offset hrestNone, poke_cell hb h, if_neg hfirst]

/-- Bytes that went to cells of their own are found again. -/
theorem peek (h : Stored b address data t) {i : Nat} (hi : data[i]? = some d) (hm : b.Mapped (address + i))
    (hown : ∀ j < data.length, i < j → b.find? (address + i) ≠ b.find? (address + j)) :
    t.peek (address + i) = .ok d.toNat := by
  obtain ⟨r, hr⟩ := hm.earliest
  have hfind := find?_of_earliest hr
  have hcell := h.last i d r.device (address + i - r.first) hi hfind fun j hj hij hsame =>
    hown j hj hij (hfind.trans hsame.symm)
  simp only [Bus.peek, find?_congr h.layout, hfind]
  exact hcell

end Stored

namespace Bus

variable {b t : Bus} {address : Int} {data xs ys : List UInt8} {k n : Nat}

/-- Where all of them are mapped, the bytes are stored. -/
theorem load_mapped (hb : b.Fitted) (hm : b.layout.MemoryOnly)
    (ha : ∀ i < data.length, b.Mapped (address + i)) :
    ∃ t, load address data b = .ok () t ∧ Stored b address data t := by
  induction data generalizing address b with
  | nil => exact ⟨b, rfl, Stored.nil b address⟩
  | cons d ds ih =>
    have hfirst : b.Mapped address := by simpa using ha 0 (by simp)
    obtain ⟨t, ht⟩ := hb.poke_mapped hfirst (byte_of_uint8 d)
    have hlayout : t.layout = b.layout := (ends_poke address d.toNat b).ok ht
    have hnext (i : Nat) (hi : i < ds.length) : t.Mapped (address + 1 + i) := by
      rw [mapped_congr hlayout, address_succ]
      exact ha (i + 1) (by simpa using hi)
    obtain ⟨u, hu, hstored⟩ := ih (fitted_congr hlayout hb) (hlayout ▸ hm) hnext
    refine ⟨u, ?_, hstored.cons hm ht⟩
    rw [load, bind_of_ok ht]
    exact hu

/-- A load goes on with what comes after the bytes that were stored. -/
theorem load_append (h : load address xs b = .ok () t) :
    load address (xs ++ ys) b = load (address + xs.length) ys t := by
  induction xs generalizing address b with
  | nil =>
    obtain rfl : b = t := (EStateM.Result.ok.inj h).2
    simp
  | cons x xs ih =>
    obtain ⟨_, u, hu, hrest⟩ := bind_eq_ok.1 h
    rw [List.cons_append, load, bind_of_ok hu, ih hrest, List.length_cons]
    congr 1
    omega

/-- A load ends at an address that is not mapped. -/
theorem load_not_mapped (ha : ¬ b.Mapped address) (hd : data ≠ []) :
    load address data b = .error (.unmapped address) b := by
  obtain ⟨d, ds, rfl⟩ := List.exists_cons_of_ne_nil hd
  exact bind_of_error (poke_not_mapped ha d.toNat)

theorem exists_first_not_mapped (h : ¬ ∀ i < n, b.Mapped (address + i)) :
    ∃ k < n, ¬ b.Mapped (address + k) ∧ ∀ i < k, b.Mapped (address + i) := by
  have hexists : ∃ k, k < n ∧ ¬ b.Mapped (address + k) := by simpa using h
  obtain ⟨hk, ha⟩ := Nat.find_spec hexists
  refine ⟨Nat.find hexists, hk, ha, fun i hi => ?_⟩
  by_contra hmapped
  exact Nat.find_min hexists hi ⟨Nat.lt_trans hi hk, hmapped⟩

/-- At the first address that is not mapped a load ends, with the bytes before it stored. -/
theorem load_first_not_mapped (hb : b.Fitted) (hm : b.layout.MemoryOnly) (hk : k < data.length)
    (ha : ¬ b.Mapped (address + k)) (hbefore : ∀ i < k, b.Mapped (address + i)) :
    ∃ t, load address data b = .error (.unmapped (address + k)) t ∧
      Stored b address (data.take k) t := by
  have htake : (data.take k).length = k := List.length_take_of_le (Nat.le_of_lt hk)
  have htaken : ∀ i < (data.take k).length, b.Mapped (address + i) := fun i hi =>
    hbefore i (htake ▸ hi)
  obtain ⟨t, hload, hstored⟩ := load_mapped hb hm htaken
  have hat : ¬ t.Mapped (address + k) := fun h => ha ((mapped_congr hstored.layout).1 h)
  have hrest : data.drop k ≠ [] := by simpa using hk
  refine ⟨t, ?_, hstored⟩
  calc load address data b = load address (data.take k ++ data.drop k) b := by
        rw [List.take_append_drop]
    _ = load (address + k) (data.drop k) t := by rw [load_append hload, htake]
    _ = .error (.unmapped (address + k)) t := load_not_mapped hat hrest

theorem peekRun_ok {l : List Int}
    (h : ∀ (i : Nat) d, l[i]? = some d → b.peek (address + i) = .ok d) :
    b.peekRun address l.length = .ok l := by
  induction l generalizing address with
  | nil => rfl
  | cons d l ih =>
    have hfirst : b.peek address = .ok d := by simpa using h 0 d rfl
    have hrest : b.peekRun (address + 1) l.length = .ok l := by
      refine ih fun i e hi => ?_
      rw [address_succ]
      exact h (i + 1) e hi
    simp [peekRun, hfirst, hrest, bind, Except.bind, pure, Except.pure]

theorem peekRun_error {f : Fault} (hbefore : ∀ i < k, ∃ d, b.peek (address + i) = .ok d)
    (hf : b.peek (address + k) = .error f) (hk : k < n) : b.peekRun address n = .error f := by
  induction k generalizing address n with
  | zero =>
    obtain ⟨n, rfl⟩ := Nat.exists_eq_add_one.2 hk
    have hfirst : b.peek address = .error f := by simpa using hf
    rw [peekRun, hfirst]
    rfl
  | succ k ih =>
    obtain ⟨n, rfl⟩ : ∃ m, n = m + 1 := ⟨n - 1, by omega⟩
    obtain ⟨d, hd⟩ : ∃ d, b.peek address = .ok d := by simpa using hbefore 0 (by omega)
    have hrest : b.peekRun (address + 1) n = .error f := by
      refine ih (fun i hi => ?_) ?_ (by omega)
      · rw [address_succ]
        exact hbefore (i + 1) (by omega)
      · rw [address_succ]
        exact hf
    simp [peekRun, hd, hrest, bind, Except.bind]

/-- A dump fails at the first address that is not mapped. -/
theorem Fitted.dump_not_mapped (hb : b.Fitted) (hbefore : ∀ i < k, b.Mapped (address + i))
    (ha : ¬ b.Mapped (address + k)) (hk : k < n) :
    b.dump address n = .error (.unmapped (address + k)) :=
  peekRun_error (fun i hi => hb.peek_mapped (hbefore i hi)) (peek_not_mapped ha) hk

end Bus

open Bus

/-- A load of mapped bytes stores them and a dump tells them back where no two share a cell; a load
that meets a gap stores the bytes before it, and a dump fails there. -/
theorem load_stores {b : Bus} (hb : b.Fitted) (hm : b.layout.MemoryOnly) (address : Int)
    (data : List UInt8) :
    ((∀ i < data.length, b.Mapped (address + i)) →
      ∃ t, load address data b = .ok () t ∧ Stored b address data t ∧
        ((∀ j < data.length, ∀ i < j, b.find? (address + i) ≠ b.find? (address + j)) →
          t.dump address data.length = .ok (data.map fun d => (d.toNat : Int)))) ∧
    ((¬ ∀ i < data.length, b.Mapped (address + i)) →
      ∃ k < data.length, ¬ b.Mapped (address + k) ∧ (∀ i < k, b.Mapped (address + i)) ∧
        b.dump address data.length = .error (.unmapped (address + k)) ∧
        ∃ t, load address data b = .error (.unmapped (address + k)) t ∧
          Stored b address (data.take k) t ∧
          t.dump address data.length = .error (.unmapped (address + k))) := by
  constructor
  · intro ha
    obtain ⟨t, hload, hstored⟩ := load_mapped hb hm ha
    refine ⟨t, hload, hstored, fun hown => ?_⟩
    have hpeek (i : Nat) (e : Int) (hi : (data.map fun d => (d.toNat : Int))[i]? = some e) :
        t.peek (address + i) = .ok e := by
      obtain ⟨d, hd, rfl⟩ : ∃ d, data[i]? = some d ∧ (d.toNat : Int) = e := by simpa using hi
      have hlt : i < data.length := (List.getElem?_eq_some_iff.1 hd).1
      exact hstored.peek hd (ha i hlt) fun j hj hij => hown j hj i hij
    have hdump := peekRun_ok hpeek
    rwa [List.length_map] at hdump
  · intro hnot
    obtain ⟨k, hk, ha, hbefore⟩ := exists_first_not_mapped hnot
    obtain ⟨t, hload, hstored⟩ := load_first_not_mapped hb hm hk ha hbefore
    have hmapped (i : Nat) : t.Mapped (address + i) ↔ b.Mapped (address + i) :=
      mapped_congr hstored.layout
    refine ⟨k, hk, ha, hbefore, hb.dump_not_mapped hbefore ha hk, t, hload, hstored, ?_⟩
    exact (fitted_congr hstored.layout hb).dump_not_mapped (fun i hi => (hmapped i).2 (hbefore i hi))
      (mt (hmapped k).1 ha) hk

/-- One load goes over to the second memory, and one stops behind the last address of its range. -/
theorem load_stores_aliased :
    aliasedBus.Fitted ∧ aliasedBus.layout.MemoryOnly ∧
      (∃ t, load 0x11 [9, 8, 7, 6] aliasedBus = .ok () t ∧ t.dump 0x11 4 = .ok [9, 8, 7, 6]) ∧
      ∃ t, load 0x14 [9, 8, 7] aliasedBus = .error (.unmapped 0x16) t ∧
        Stored aliasedBus 0x14 [9, 8] t ∧ t.dump 0x14 3 = .error (.unmapped 0x16) := by
  have hb : aliasedBus.Fitted := by decide
  have hm : aliasedBus.layout.MemoryOnly := by decide +kernel
  obtain ⟨hmapped, -⟩ := load_stores hb hm 0x11 [9, 8, 7, 6]
  obtain ⟨t, hload, -, hdump⟩ := hmapped (by decide)
  obtain ⟨-, hunmapped⟩ := load_stores hb hm 0x14 [9, 8, 7]
  obtain ⟨k, hk, ha, -, -, u, hfail, hstored, hdumpFails⟩ := hunmapped (by decide)
  have hbefore : ∀ i < 2, aliasedBus.Mapped (0x14 + (i : Nat)) := by decide
  obtain rfl : k = 2 := by
    have hlast : k < 3 := hk
    have hnot : ¬ k < 2 := fun h => ha (hbefore k h)
    omega
  exact ⟨hb, hm, ⟨t, hload, hdump (by decide)⟩, u, hfail, hstored, hdumpFails⟩

end SpriteVM
