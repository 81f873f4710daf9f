import SpriteVM.Proofs.Machine.Between
import SpriteVM.Proofs.Machine.Outcome

namespace SpriteVM

theorem Instruction.decode_word (word address : Int) : (decode word address).word = word % 65536 := rfl

/-- A decoded instruction is the classification of its own word. -/
theorem Instruction.decode_decoded (word address : Int) :
    decode (decode word address).word address = decode word address := by
  rw [decode_word, decode, decode, Int.emod_emod]

/-- What is done to a machine: an action of its host, or an assignment to parts of its state, as to the
counter. -/
inductive Deed
  | host (a : HostAction)
  | assign (change : State → State)

def Deed.act : Deed → Machine → Machine
  | host a, m => left (a.act m)
  | assign change, m => { m with core := ⟨change m.state, m.bus⟩ }

/-- One deed after the other; the next is done also where one fails. -/
def history (deeds : List Deed) (m : Machine) : Machine := deeds.foldl (fun m a => a.act m) m

namespace Machine

variable {m : Machine}

/-- What is remembered is the classification of its word. -/
def Remembers (m : Machine) : Prop :=
  ∀ d, m.fetched = some d → d = Instruction.decode d.word d.address

theorem Remembers.decode_eq (h : m.Remembers) (word : Int) :
    m.decode word = Instruction.decode word m.state.pc := by
  unfold decode
  cases hf : m.fetched with
  | none => rfl
  | some d =>
    dsimp only
    split
    · next hfits =>
      rw [h d hf, hfits.1, hfits.2]
    · rfl

theorem remembers_congr {t : Machine} (h : t.fetched = m.fetched) (hm : m.Remembers) : t.Remembers := by
  rwa [Remembers, h]

/-- What a fetch reads is remembered by right. -/
theorem remembers_of_read {t : Machine} {d : Instruction} {address : Int} {b u : Bus}
    (hr : readInstruction address b = .ok d u) (ht : t.fetched = some d) : t.Remembers := by
  intro e he
  obtain rfl : d = e := Option.some.inj (ht.symm.trans he)
  obtain ⟨high, low, b', -, -, rfl⟩ := readInstruction_eq_ok hr
  exact (Instruction.decode_decoded _ address).symm

/-- Nothing but a fetch changes what is remembered. -/
theorem Built.keeps_remembers {R : State → State → Prop} {α : Type} {act : Action α} (h : Built R act) :
    Keeps Remembers act := by
  induction h with
  | pure | throw | inspect | takeLog => exact fun _ hm => hm
  | bind h hn ih ihn => exact ih.bind ihn
  | update => exact fun _ hm => hm
  | busRead | busWrite | busLoad =>
    intro m hm
    rw [ends_onBus]
    exact Ends.of_forall (fun _ _ _ => hm) fun _ _ _ => hm
  | onTrace act =>
    intro m hm
    rw [ends_onTrace]
    exact Ends.of_forall (fun _ _ _ => hm) fun _ _ _ => hm

/-- A cycle that fails leaves what it fetched, too, be it before it was executed or halfway. -/
theorem step_remembers : Keeps Remembers step := by
  intro m hm
  have ho := step_outcome m
  unfold Ends
  generalize m.step = r at ho
  cases ho with
  | stopped | waiting | counter | unreadable => exact remembers_congr rfl hm
  | failed _ _ hr => exact remembers_of_read hr rfl
  | hookFailed _ _ hr | done _ _ hr => exact remembers_of_read hr rfl

theorem reset_remembers : Keeps Remembers reset := by
  intro m hm
  rw [reset, ends_bind, ends_modify, installFont, ends_onBus]
  exact Ends.of_forall (fun _ _ _ => hm) fun _ _ _ => hm

theorem create_remembers {b : Bus} {seed : Int} (h : create b seed = .ok m) : m.Remembers := by
  obtain ⟨u, -, rfl⟩ := create_eq_ok.1 h
  intro d hd
  exact absurd hd (Option.some_ne_none d).symm

end Machine

open Machine

theorem HostAction.act_remembers (a : HostAction) : Keeps Remembers a.act := by
  obtain rfl | rfl | hbuilt := a.step_or_reset_or_built
  · exact step_remembers.map _
  · exact reset_remembers.map _
  · exact hbuilt.keeps_remembers

theorem Deed.act_remembers (a : Deed) {m : Machine} (hm : m.Remembers) : (a.act m).Remembers := by
  cases a with
  | host a => exact a.act_remembers.left hm
  | assign change => exact hm

theorem history_remembers (deeds : List Deed) {m : Machine} (hm : m.Remembers) :
    (history deeds m).Remembers := by
  induction deeds generalizing m with
  | nil => exact hm
  | cons a deeds ih => exact ih (a.act_remembers hm)

/-- After any history a machine decodes a word as if it remembered nothing. -/
theorem history_decode {b : Bus} {seed : Int} {m₀ : Machine} (h₀ : create b seed = .ok m₀)
    (deeds : List Deed) (word : Int) :
    (history deeds m₀).decode word =
      Instruction.decode word (history deeds m₀).state.pc :=
  (history_remembers deeds (create_remembers h₀)).decode_eq word

/-- The machine goes round in a jump, which is overwritten; after a cycle at an odd address failed the
counter is set back. -/
def overwrittenJump : List Deed :=
  [.host (.load [0x12, 0x00]), .host .step, .host (.busWrite 0x200 0x60),
    .assign fun s => { s with pc := 0x201 }, .host .step, .assign fun s => { s with pc := 0x200 }]

/-- The jump is remembered where memory holds another instruction by now. -/
theorem history_decode_overwrittenJump : ∃ m₀, create splitMemory 7 = .ok m₀ ∧
    (history overwrittenJump m₀).fetched = some (Instruction.decode 0x1200 0x200) ∧
    (history overwrittenJump m₀).decode 0x1200 = Instruction.decode 0x1200 0x200 := by
  obtain ⟨m₀, h₀, hcheck⟩ := exists_created splitMemory 7
    (fun m => (history overwrittenJump m).fetched = some (Instruction.decode 0x1200 0x200) ∧
      (history overwrittenJump m).state.pc = 0x200) (by decide +kernel)
  obtain ⟨hfetched, hpc⟩ := of_decide_eq_true hcheck
  refine ⟨m₀, h₀, hfetched, ?_⟩
  rw [history_decode h₀ overwrittenJump 0x1200, hpc]

end SpriteVM
