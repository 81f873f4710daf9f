import SpriteVM.Instruction.Template

namespace SpriteVM

inductive Kind
  | clear | ret | jump | call | jumpOffset
  | skipEqImm | skipNeImm | skipEqReg | skipNeReg
  | loadImm | addImm | copy | or | and | xor
  | add | sub | shiftRight | reverseSub | shiftLeft
  | random
  | setIndex | addIndex | fontAddress | bcd | storeRegisters | loadRegisters
  | draw
  | skipKeyDown | skipKeyUp | waitKey | readDelay | writeDelay | writeSound
  | nop | halt | unknown
  deriving DecidableEq, Repr

abbrev Instruction := Decoded Kind

namespace Instruction

def table : List (Template Kind) := [
  ⟨0x00E0, 0xFFFF, .none, "CLS", .clear⟩,
  ⟨0x00EE, 0xFFFF, .none, "RET", .ret⟩,
  ⟨0x1000, 0xF000, .address, "JP", .jump⟩,
  ⟨0x2000, 0xF000, .address, "CALL", .call⟩,
  ⟨0x3000, 0xF000, .registerByte, "SE", .skipEqImm⟩,
  ⟨0x4000, 0xF000, .registerByte, "SNE", .skipNeImm⟩,
  ⟨0x5000, 0xF000, .registerPair, "SE", .skipEqReg⟩,
  ⟨0x6000, 0xF000, .registerByte, "LD", .loadImm⟩,
  ⟨0x7000, 0xF000, .registerByte, "ADD", .addImm⟩,
  ⟨0x8000, 0xF00F, .registerPair, "LD", .copy⟩,
  ⟨0x8001, 0xF00F, .registerPair, "OR", .or⟩,
  ⟨0x8002, 0xF00F, .registerPair, "AND", .and⟩,
  ⟨0x8003, 0xF00F, .registerPair, "XOR", .xor⟩,
  ⟨0x8004, 0xF00F, .registerPair, "ADD", .add⟩,
  ⟨0x8005, 0xF00F, .registerPair, "SUB", .sub⟩,
  ⟨0x8006, 0xF00F, .registerPair, "SHR", .shiftRight⟩,
  ⟨0x8007, 0xF00F, .registerPair, "SUBN", .reverseSub⟩,
  ⟨0x800E, 0xF00F, .registerPair, "SHL", .shiftLeft⟩,
  ⟨0x9000, 0xF00F, .registerPair, "SNE", .skipNeReg⟩,
  ⟨0xA000, 0xF000, .address, "LDI", .setIndex⟩,
  ⟨0xB000, 0xF000, .address, "JPV0", .jumpOffset⟩,
  ⟨0xC000, 0xF000, .registerByte, "RND", .random⟩,
  ⟨0xD000, 0xF000, .registerPairNibble, "DRW", .draw⟩,
  ⟨0xE09E, 0xF0FF, .register, "SKP", .skipKeyDown⟩,
  ⟨0xE0A1, 0xF0FF, .register, "SKNP", .skipKeyUp⟩,
  ⟨0xF007, 0xF0FF, .register, "LDDT", .readDelay⟩,
  ⟨0xF00A, 0xF0FF, .register, "WKEY", .waitKey⟩,
  ⟨0xF015, 0xF0FF, .register, "SETDT", .writeDelay⟩,
  ⟨0xF018, 0xF0FF, .register, "SETST", .writeSound⟩,
  ⟨0xF01E, 0xF0FF, .register, "ADDI", .addIndex⟩,
  ⟨0xF029, 0xF0FF, .register, "FONT", .fontAddress⟩,
  ⟨0xF033, 0xF0FF, .register, "BCD", .bcd⟩,
  ⟨0xF055, 0xF0FF, .register, "STR", .storeRegisters⟩,
  ⟨0xF065, 0xF0FF, .register, "LDR", .loadRegisters⟩,
  ⟨0x0000, 0xFFFF, .none, "NOP", .nop⟩,
  ⟨0xFFFF, 0xFFFF, .none, "HALT", .halt⟩]

/-- The template of a word that no other fits; it fits every word and is not in the table. -/
def unknownTemplate : Template Kind := ⟨0, 0, .none, "UNKNOWN", .unknown⟩

/-- The classification of the lowest sixteen bits of a word. -/
def decode (word address : Int) : Instruction :=
  let word := word % 65536
  ⟨word, (table.find? (·.fits word)).getD unknownTemplate, address⟩

end Instruction

end SpriteVM
