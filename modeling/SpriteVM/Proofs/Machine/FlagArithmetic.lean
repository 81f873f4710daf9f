import Mathlib.Tactic.SplitIfs
import SpriteVM.Proofs.Outcome

namespace SpriteVM

/-- The operations on two registers that leave a flag. -/
inductive FlagOperation
  | add | sub | shiftRight | reverseSub | shiftLeft
  deriving DecidableEq, Repr

namespace FlagOperation

def kind : FlagOperation → Kind
  | add => .add
  | sub => .sub
  | shiftRight => .shiftRight
  | reverseSub => .reverseSub
  | shiftLeft => .shiftLeft

/-- The last digit of the words of an operation. -/
def digit : FlagOperation → Nat
  | add => 4
  | sub => 5
  | shiftRight => 6
  | reverseSub => 7
  | shiftLeft => 14

def word (op : FlagOperation) (x y : Fin 16) : Int :=
  0x8000 + 0x100 * x.val + 0x10 * y.val + op.digit

/-- The result, where the destination holds `a` and the other register `b`. -/
def result (a b : Int) : FlagOperation → Int
  | add => (a + b) % 256
  | sub => (a - b) % 256
  | shiftRight => a / 2
  | reverseSub => (b - a) % 256
  | shiftLeft => 2 * a % 256

/-- The carry of a sum, one for a difference that borrows nothing, and the bit that a shift loses. -/
def flag (a b : Int) : FlagOperation → Int
  | add => if 255 < a + b then 1 else 0
  | sub => if b ≤ a then 1 else 0
  | shiftRight => a % 2
  | reverseSub => if a ≤ b then 1 else 0
  | shiftLeft => a / 128

/-- The instruction of the operation, as it is decoded from its word. -/
def instruction (op : FlagOperation) (x y : Fin 16) (address : Int) : Instruction :=
  Instruction.decode (op.word x y) address

variable (op : FlagOperation) (x y : Fin 16) (address : Int)

theorem digit_le : op.digit ≤ 15 := by
  cases op <;> decide

theorem x_instruction : (op.instruction x y address).x = x := by
  have hdigit := op.digit_le
  have hpow : Nat.pow 16 2 = 256 := rfl
  apply Fin.ext
  simp only [instruction, Instruction.decode, Decoded.x, Decoded.digit, word, hpow]
  omega

theorem y_instruction : (op.instruction x y address).y = y := by
  have hdigit := op.digit_le
  have hpow : Nat.pow 16 1 = 16 := rfl
  apply Fin.ext
  simp only [instruction, Instruction.decode, Decoded.y, Decoded.digit, word, hpow]
  omega

theorem kind_instruction : (op.instruction x y address).kind = op.kind := by
  -- the address has no part in it, and there are 256 words for each operation
  have hwords : ∀ x y : Fin 16, (op.instruction x y 0).kind = op.kind := by
    cases op <;> decide +kernel
  exact hwords x y

end FlagOperation

/-- From `s` to `t` the flag register got the flag and the destination the result, unless it is the flag
register. -/
structure State.Computed (x : Fin 16) (result flag : Int) (s t : State) : Prop where
  flag : t.flag = flag
  result : x ≠ flagRegister → t.reg x = result
  others : ∀ r, r ≠ x → r ≠ flagRegister → t.reg r = s.reg r

/-- The result is written first, so that it is lost where the flag goes to the same register. -/
theorem State.setFlagged_computed (s : State) (x : Fin 16) (r : Flagged) :
    Computed x r.value r.flag s (s.setFlagged x r) where
  flag := reg_setReg _ flagRegister r.flag
  result := by
    intro hx
    rw [setFlagged, reg_setReg_of_ne _ (Ne.symm hx), reg_setReg]
  others := by
    intro q hx hflag
    rw [setFlagged, reg_setReg_of_ne _ (Ne.symm hflag), reg_setReg_of_ne _ (Ne.symm hx)]

namespace Flagged

/-- What the machine works out for an operation on two bytes. -/
def ofOperation (a b : Int) : FlagOperation → Flagged
  | .add => sum a b
  | .sub => difference a b
  | .shiftRight => halved a
  | .reverseSub => difference b a
  | .shiftLeft => doubled a

theorem ofOperation_eq {a : Int} (ha : 0 ≤ a ∧ a ≤ 255) (b : Int) (op : FlagOperation) :
    ofOperation a b op = ⟨op.result a b, op.flag a b⟩ := by
  cases op with
  | add | sub | reverseSub => rfl
  | shiftRight =>
    have hvalue : a / 2 % 256 = a / 2 := by omega
    simp only [ofOperation, halved, hvalue, FlagOperation.result, FlagOperation.flag]
  | shiftLeft =>
    have hflag : a / 128 % 2 = a / 128 := by omega
    simp only [ofOperation, doubled, hflag, FlagOperation.result, FlagOperation.flag]

end Flagged

namespace FlagOperation

variable {a b : Int}

/-- A difference from a sum gives back what was added to, and it borrows if the sum carried. -/
theorem sub_add (ha : 0 ≤ a ∧ a ≤ 255) (hb : 0 ≤ b ∧ b ≤ 255) :
    sub.result (add.result a b) b = a ∧ sub.flag (add.result a b) b = 1 - add.flag a b := by
  simp only [result, flag]
  split_ifs <;> omega

end FlagOperation

namespace Core

variable {c t : Core} {d : Instruction}

/-- An operation never fails. -/
theorem execute_operation {op : FlagOperation} (hk : d.kind = op.kind) (c : Core) :
    execute d c = .ok () ⟨{ c.state.setFlagged d.x
        (Flagged.ofOperation (c.state.reg d.x) (c.state.reg d.y) op) with pc := c.state.pc + 2 },
      c.bus⟩ := by
  cases op <;> rw [execute, hk] <;> rfl

/-- The operation ends, with its result and its flag in the registers and nothing else in them new. -/
theorem execute_computes {x : Fin 16} (hx : 0 ≤ c.state.reg x ∧ c.state.reg x ≤ 255)
    (op : FlagOperation) (y : Fin 16) (address : Int) :
    ∃ t, execute (op.instruction x y address) c = .ok () t ∧
      State.Computed x (op.result (c.state.reg x) (c.state.reg y))
        (op.flag (c.state.reg x) (c.state.reg y)) c.state t.state := by
  refine ⟨_, execute_operation (op.kind_instruction x y address) c, ?_⟩
  rw [op.x_instruction, op.y_instruction, Flagged.ofOperation_eq hx]
  have h := State.setFlagged_computed c.state x
    ⟨op.result (c.state.reg x) (c.state.reg y), op.flag (c.state.reg x) (c.state.reg y)⟩
  exact ⟨h.flag, h.result, h.others⟩

/-- Whichever registers it names, an operation leaves its flag in the flag register and its result in
the destination, unless that is the flag register, and all others as they were. -/
theorem execute_flagOperation (hc : ∀ r, 0 ≤ c.state.reg r ∧ c.state.reg r ≤ 255) (x y : Fin 16)
    (address address' : Int) :
    let a := c.state.reg x
    let b := c.state.reg y
    (∀ op : FlagOperation, ∃ t, execute (op.instruction x y address) c = .ok () t ∧
        State.Computed x (op.result a b) (op.flag a b) c.state t.state) ∧
      (x ≠ y → x ≠ State.flagRegister → y ≠ State.flagRegister →
        ∃ t u, execute (FlagOperation.add.instruction x y address) c = .ok () t ∧
          execute (FlagOperation.sub.instruction x y address') t = .ok () u ∧
          u.state.reg x = a ∧ u.state.flag = 1 - t.state.flag) := by
  intro a b
  refine ⟨fun op => execute_computes (hc x) op y address, fun hxy hx hy => ?_⟩
  obtain ⟨t, hadd, hsum⟩ := execute_computes (hc x) .add y address
  have hbyte : 0 ≤ t.state.reg x ∧ t.state.reg x ≤ 255 := by
    rw [hsum.result hx, FlagOperation.result]
    omega
  obtain ⟨u, hsub, hdifference⟩ := execute_computes hbyte .sub y address'
  obtain ⟨hback, hflags⟩ := FlagOperation.sub_add (hc x) (hc y)
  refine ⟨t, u, hadd, hsub, ?_, ?_⟩
  · rw [hdifference.result hx, hsum.result hx, hsum.others y (Ne.symm hxy) hy, hback]
  · rw [hdifference.flag, hsum.result hx, hsum.others y (Ne.symm hxy) hy, hflags, hsum.flag]

/-- The register 1 holds 17, and the flag register 255. -/
def flagInUse : Core where
  state := { State.initial 7 with v := Vector.ofFn fun r => 17 * r.val }
  bus := Bus.empty

/-- The sum goes to the flag register and is lost; a register less itself borrows nothing. -/
theorem execute_flagOperation_inUse :
    (∀ r, 0 ≤ flagInUse.state.reg r ∧ flagInUse.state.reg r ≤ 255) ∧
      (∃ t, execute (FlagOperation.add.instruction 15 1 0x200) flagInUse = .ok () t ∧
        t.state.flag = 1 ∧ t.state.reg 1 = 17) ∧
      ∃ t, execute (FlagOperation.sub.instruction 1 1 0x200) flagInUse = .ok () t ∧
        t.state.flag = 1 ∧ t.state.reg 1 = 0 := by
  have hc : ∀ r, 0 ≤ flagInUse.state.reg r ∧ flagInUse.state.reg r ≤ 255 := by decide +kernel
  obtain ⟨t, hadd, hsum⟩ := (execute_flagOperation hc 15 1 0x200 0x202).1 .add
  obtain ⟨u, hsub, hdifference⟩ := (execute_flagOperation hc 1 1 0x200 0x202).1 .sub
  exact ⟨hc, ⟨t, hadd, hsum.flag, hsum.others 1 (by decide) (by decide)⟩,
    u, hsub, hdifference.flag, hdifference.result (by decide)⟩

end Core

end SpriteVM
