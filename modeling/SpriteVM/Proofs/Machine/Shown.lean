import Mathlib.Data.List.Nodup
import SpriteVM.Machine.Inspect

namespace SpriteVM

/-- The registers that the layout declares, in its order. -/
def declared : List RegisterInfo := registerLayout.flatMap (·.registers)

theorem mem_declared {r : RegisterInfo} : r ∈ declared ↔ (∃ x, r = ⟨registerName x, 8⟩) ∨
    r = ⟨"I", 12⟩ ∨ r = ⟨"PC", 12⟩ ∨ r = ⟨"SP", 8⟩ ∨ r = ⟨"DT", 8⟩ ∨ r = ⟨"ST", 8⟩ := by
  simp [declared, registerLayout, eq_comm]

theorem declared_nodup : (declared.map (·.name)).Nodup := by
  decide +kernel

def generalNames : Vector String 16 := #v["V0", "V1", "V2", "V3", "V4", "V5", "V6", "V7",
  "V8", "V9", "VA", "VB", "VC", "VD", "VE", "VF"]

theorem registerName_eq (x : Fin 16) : registerName x = generalNames.get x := by
  decide +kernel +revert

namespace State

variable {s : State} {name : String} {value : Int}

theorem registers_names (s : State) : s.registers.map (·.1) = declared.map (·.name) := by
  simp [registers, declared, registerLayout, Function.comp_def]

theorem lookup_registers (h : (name, value) ∈ s.registers) :
    s.registers.lookup name = some value := by
  have hnodup : (s.registers.map (·.1)).Nodup := s.registers_names ▸ declared_nodup
  obtain ⟨before, behind, hsplit⟩ := List.append_of_mem h
  rw [hsplit, List.map_append, List.map_cons] at hnodup
  have hfirst : name ∉ before.map (·.1) := fun hmem =>
    List.disjoint_of_nodup_append hnodup hmem List.mem_cons_self
  refine List.lookup_eq_some_iff.2 ⟨before, behind, hsplit, fun p hp => ?_⟩
  have hne : name ≠ p.1 := fun he => hfirst (he ▸ List.mem_map_of_mem hp)
  simp [hne]

/-- The register of this name holds the value. -/
inductive Shows (s : State) : String → Int → Prop
  | general (x : Fin 16) : Shows s (generalNames.get x) (s.reg x)
  | index : Shows s "I" s.i
  | counter : Shows s "PC" s.pc
  | stackPointer : Shows s "SP" s.sp
  | delay : Shows s "DT" s.delayTimer
  | sound : Shows s "ST" s.soundTimer

theorem mem_registers : (name, value) ∈ s.registers ↔ s.Shows name value := by
  constructor
  · intro h
    simp only [registers, List.mem_append, List.mem_map, List.mem_finRange, true_and, Prod.mk.injEq,
      List.mem_cons, List.not_mem_nil, or_false] at h
    obtain ⟨x, rfl, rfl⟩ | ⟨rfl, rfl⟩ | ⟨rfl, rfl⟩ | ⟨rfl, rfl⟩ | ⟨rfl, rfl⟩ | ⟨rfl, rfl⟩ := h
    · rw [registerName_eq]
      exact .general x
    · exact .index
    · exact .counter
    · exact .stackPointer
    · exact .delay
    · exact .sound
  · intro h
    cases h with
    | general x =>
      rw [← registerName_eq]
      exact List.mem_append_left _ (List.mem_map_of_mem (List.mem_finRange x))
    | index | counter | stackPointer | delay | sound => simp [registers]

/-- Looking a register up by its name tells what it holds. -/
theorem lookup_eq_some : s.registers.lookup name = some value ↔ s.Shows name value := by
  rw [← mem_registers]
  constructor
  · intro h
    obtain ⟨before, behind, hsplit, -⟩ := List.lookup_eq_some_iff.1 h
    simp [hsplit]
  · exact lookup_registers

end State

end SpriteVM
