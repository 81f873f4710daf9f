import SpriteVM.Proofs.Bus.Cells

namespace SpriteVM

/-- A call of a host on a bus. -/
inductive BusCall
  | read (address : Int)
  | write (address data : Int)
  | peek (address : Int)
  | dump (address length : Int)
  deriving DecidableEq, Repr

inductive BusReply
  | done
  | byte (data : Int)
  | bytes (data : List Int)
  deriving DecidableEq, Repr

namespace BusCall

/-- An answer that leaves the bus as it is. -/
def look (view : Bus → Except Fault BusReply) : EStateM Fault Bus BusReply := fun b =>
  match view b with
  | .ok r => .ok r b
  | .error f => .error f b

def act : BusCall → EStateM Fault Bus BusReply
  | read address => BusReply.byte <$> Bus.read address
  | write address data => (fun _ => .done) <$> Bus.write address data
  | peek address => look fun b => (b.peek address).map .byte
  | dump address length => look fun b => (b.dump address length).map .bytes

/-- What the call answers, or why it fails. -/
def answer (c : BusCall) (b : Bus) : Except Fault BusReply :=
  match c.act b with
  | .ok r _ => .ok r
  | .error f _ => .error f

/-- The call only looks at the bus. -/
def Looks : BusCall → Prop
  | peek _ | dump _ _ => True
  | read _ | write _ _ => False

/-- The access that a call with this answer is. -/
def logged? : BusCall → Except Fault BusReply → Option Access
  | read address, .ok (.byte data) => some ⟨.read, address, data⟩
  | write address data, .ok _ => some ⟨.write, address, data⟩
  | _, _ => none

end BusCall

/-- A call after the other; the next goes on also where one fails. -/
def busSession (calls : List BusCall) (b : Bus) : Bus :=
  calls.foldl (fun b c => left (c.act b)) b

/-- The calls of a session with what each of them answered. -/
def busAnswers : List BusCall → Bus → List (BusCall × Except Fault BusReply)
  | [], _ => []
  | c :: calls, b => (c, c.answer b) :: busAnswers calls (left (c.act b))

/-- The accesses of a session: the reads and writes that did not fail, in their order. -/
def busAccesses (calls : List BusCall) (b : Bus) : List Access :=
  (busAnswers calls b).filterMap fun r => r.1.logged? r.2

namespace Bus

/-- The data last written, by a record, to the cell that serves an address. -/
def latest? (b : Bus) (address : Int) (l : List Access) : Option Int :=
  (l.filter fun a => a.kind = .write ∧ b.find? a.address = b.find? address).getLast?.map (·.data)

/-- A memory after an access: a write to one of its cells is done, and nothing else. -/
def redone (b : Bus) (device : Nat) (r : Ram) (a : Access) : Ram :=
  match a.kind, b.find? a.address with
  | .write, some (k, offset) => if k = device then r.put offset.toNat a.data else r
  | _, _ => r

variable {b t u : Bus} {address data : Int} {l l' : List Access} {k : Nat} {r : Ram}

theorem latest?_congr (h : t.layout = b.layout) (address : Int) (l : List Access) :
    t.latest? address l = b.latest? address l := by
  simp only [latest?, find?_congr h]

theorem redone_congr (h : t.layout = b.layout) (device : Nat) : t.redone device = b.redone device := by
  funext r a
  simp only [redone, find?_congr h]

theorem latest?_append (b : Bus) (address : Int) (l l' : List Access) :
    b.latest? address (l ++ l') = (b.latest? address l').or (b.latest? address l) := by
  simp only [latest?, List.filter_append, List.getLast?_append]
  cases (l'.filter _).getLast? <;> rfl

/-- The memory that serves an address, where nothing else is attached. -/
theorem find?_memory (hb : b.layout.MemoryOnly) {offset : Int}
    (hf : b.find? address = some (k, offset)) : ∃ r, b.devices[k]? = some (.ram r) := by
  obtain ⟨range, hr, -, -, rfl, -⟩ := find?_eq_some hf
  obtain ⟨n, hn⟩ := hb range hr
  obtain ⟨r, hd, -⟩ := devices_of_extents hn
  exact ⟨r, hd⟩

theorem poke_memory (hb : b.layout.MemoryOnly) (h : poke address data b = .ok () t) :
    ∃ k offset r, b.find? address = some (k, offset) ∧ b.devices[k]? = some (.ram r) ∧
      r.refusal? offset data = none ∧
      t = { b with devices := b.devices.modify k (·.put offset data) } := by
  unfold poke at h
  cases hf : b.find? address with
  | none => simp [hf] at h
  | some place =>
    obtain ⟨k, offset⟩ := place
    obtain ⟨r, hd⟩ := find?_memory hb hf
    simp only [hf, writeDevice, hd, Device.refusal?] at h
    cases hn : r.refusal? offset data with
    | some f => simp [hn] at h
    | none =>
      rw [hn] at h
      obtain ⟨-, rfl⟩ := EStateM.Result.ok.inj h
      exact ⟨k, offset, r, rfl, hd, hn, rfl⟩

/-- Memory that can be written can be read. -/
theorem peek_of_poke (hb : b.layout.MemoryOnly) (h : poke address data b = .ok () t)
    {address' : Int} (hsame : b.find? address = b.find? address') :
    ∃ first, b.peek address' = .ok first := by
  obtain ⟨k, offset, r, hf, hd, hn, -⟩ := poke_memory hb h
  have hholds := ((r.refusal?_eq_none offset data).1 hn).1
  refine ⟨r.cell offset.toNat, ?_⟩
  rw [peek, ← hsame, hf]
  simp [readDevice, hd, Device.read, Ram.read, hholds]

/-- A write changes its cell, under all addresses of the cell, and no other. -/
theorem poke_peek (hb : b.layout.MemoryOnly) (h : poke address data b = .ok () t) (address' : Int) :
    t.peek address' =
      if b.find? address = b.find? address' then .ok data else b.peek address' := by
  split_ifs with hsame
  · obtain ⟨k, offset, r, hf, hd, hn, rfl⟩ := poke_memory hb h
    have hfind : find? { b with devices := b.devices.modify k (·.put offset data) } address' =
        some (k, offset) := hsame.symm.trans hf
    rw [peek, hfind]
    simpa [readDevice, Array.getElem?_modify, hd, Device.put, Device.read] using Ram.read_put_self hn
  · refine (poke_altered h).peek address' fun a ha => ?_
    obtain rfl := List.mem_singleton.1 ha
    rintro ⟨k, offset, offset', hf, hf', rfl | hperipheral⟩
    · exact hsame (hf.trans hf'.symm)
    · obtain ⟨r, hd⟩ := find?_memory hb hf
      simp [layout, hd, Device.extent] at hperipheral

/-- The record has been continued by `l` since `b`, and this explains all there is to be seen in `t`. -/
structure Records (b : Bus) (l : List Access) (t : Bus) : Prop where
  layout : t.layout = b.layout
  log : t.log = b.log ++ l
  peek : ∀ address, t.peek address =
    (b.peek address).map fun first => (b.latest? address l).getD first
  reads : ∀ (k : Nat) address data, l[k]? = some ⟨.read, address, data⟩ →
    ∃ first, b.peek address = .ok first ∧ data = (b.latest? address (l.take k)).getD first
  memory : ∀ (k : Nat) r, b.devices[k]? = some (.ram r) →
    t.devices[k]? = some (.ram (l.foldl (b.redone k) r))

namespace Records

theorem refl (b : Bus) : Records b [] b where
  layout := rfl
  log := by simp
  peek := by
    intro address
    cases b.peek address <;> rfl
  reads := by simp
  memory := fun _ _ h => h

theorem trans (h : Records b l t) (h' : Records t l' u) : Records b (l ++ l') u where
  layout := h'.layout.trans h.layout
  log := by rw [h'.log, h.log, List.append_assoc]
  peek := by
    intro address
    rw [h'.peek, h.peek, latest?_append]
    rw [latest?_congr h.layout]
    cases b.peek address <;> cases b.latest? address l' <;> rfl
  reads := by
    intro k address data hk
    by_cases hlt : k < l.length
    · rw [List.getElem?_append_left hlt] at hk
      rw [List.take_append_of_le_length (Nat.le_of_lt hlt)]
      exact h.reads k address data hk
    · rw [List.getElem?_append_right (Nat.not_lt.1 hlt)] at hk
      obtain ⟨between, hbetween, hdata⟩ := h'.reads _ address data hk
      rw [h.peek] at hbetween
      cases hfirst : b.peek address with
      | error f => simp [hfirst, Except.map] at hbetween
      | ok first =>
        refine ⟨first, rfl, ?_⟩
        rw [hfirst] at hbetween
        obtain rfl := Except.ok.inj hbetween
        rw [List.take_append, List.take_of_length_le (Nat.not_lt.1 hlt), latest?_append, hdata,
          latest?_congr h.layout]
        cases b.latest? address (l'.take (k - l.length)) <;> rfl
  memory := by
    intro k r hk
    have hafter := h'.memory k _ (h.memory k r hk)
    rwa [redone_congr h.layout, ← List.foldl_append] at hafter

/-- Only the record was continued, by a read of what is there. -/
theorem read (h : b.peek address = .ok data) :
    Records b [⟨.read, address, data⟩] (b.record ⟨.read, address, data⟩) where
  layout := rfl
  log := rfl
  peek := by
    intro address'
    change b.peek address' = _
    cases b.peek address' <;> rfl
  reads := by
    intro k address' data' hk
    obtain ⟨rfl, hk⟩ : k = 0 ∧ _ := by
      cases k with
      | zero => exact ⟨rfl, hk⟩
      | succ k => simp at hk
    obtain ⟨rfl, rfl⟩ : address = address' ∧ data = data' := by simpa using hk
    exact ⟨data, h, rfl⟩
  memory := fun _ _ h => h

theorem write (hb : b.layout.MemoryOnly) (h : Bus.write address data b = .ok () t) :
    Records b [⟨.write, address, data⟩] t where
  layout := (ends_write address data b).ok h
  log := write_log h
  peek := by
    obtain ⟨u, hp, rfl⟩ := write_eq_ok h
    intro address'
    change u.peek address' = _
    rw [poke_peek hb hp]
    by_cases hsame : b.find? address = b.find? address'
    · obtain ⟨first, hfirst⟩ := peek_of_poke hb hp hsame
      simp [latest?, hsame, hfirst, Except.map]
    · cases b.peek address' <;> simp [latest?, hsame, Except.map]
  reads := by
    intro k address' data' hk
    cases k <;> simp at hk
  memory := by
    obtain ⟨u, hp, rfl⟩ := write_eq_ok h
    obtain ⟨k', offset, r', hf, hd, hn, rfl⟩ := poke_memory hb hp
    intro k r hk
    by_cases hk' : k' = k
    · subst hk'
      obtain rfl : r' = r := by simpa [hd] using hk
      simp [record, redone, hf, Array.getElem?_modify, hd, Device.put]
    · simp [record, redone, hf, Array.getElem?_modify, hk, hk']

end Records

end Bus

open Bus

namespace BusCall

variable {b : Bus} {c : BusCall}

theorem act_of_looks (h : c.Looks) : left (c.act b) = b := by
  cases c with
  | read | write => exact h.elim
  | peek address =>
    unfold act look
    dsimp only
    cases (b.peek address).map BusReply.byte <;> rfl
  | dump address length =>
    unfold act look
    dsimp only
    cases (b.dump address length).map BusReply.bytes <;> rfl

theorem act_of_error {f : Fault} (h : c.answer b = .error f) : left (c.act b) = b := by
  cases c with
  | read address =>
    cases hr : Bus.read address b with
    | ok data t =>
      have hact : (read address).act b = .ok (.byte data) t := map_of_ok _ hr
      rw [answer, hact] at h
      contradiction
    | error g t =>
      have hact : (read address).act b = .error g t := map_of_error _ hr
      rw [hact]
      exact read_eq_error hr
  | write address data =>
    cases hr : Bus.write address data b with
    | ok _ t =>
      have hact : (write address data).act b = .ok .done t := map_of_ok _ hr
      rw [answer, hact] at h
      contradiction
    | error g t =>
      have hact : (write address data).act b = .error g t := map_of_error _ hr
      rw [hact]
      exact (ends_write address data b).error hr
  | peek address => exact act_of_looks (c := peek address) trivial
  | dump address length => exact act_of_looks (c := dump address length) trivial

theorem logged?_of_looks (h : c.Looks) (r : Except Fault BusReply) : c.logged? r = none := by
  cases c with
  | read | write => exact h.elim
  | peek | dump => rfl

theorem answer_peek {address : Int} {r : Except Fault Int} (h : b.peek address = r) :
    answer (.peek address) b = r.map .byte := by
  subst h
  unfold answer act look
  dsimp only
  cases b.peek address <;> rfl

/-- A call is recorded if it is a read or a write that does not fail, and else it changes nothing. -/
theorem act_records (hb : b.layout.MemoryOnly) (c : BusCall) :
    Records b (c.logged? (c.answer b)).toList (left (c.act b)) := by
  cases c with
  | read address =>
    cases hp : b.peek address with
    | ok data =>
      have hr : Bus.read address b = .ok data (b.record ⟨.read, address, data⟩) := by
        rw [Bus.read, hp]
      have hact : (read address).act b = .ok (.byte data) _ := map_of_ok _ hr
      rw [answer, hact]
      exact Records.read hp
    | error f =>
      have hr : Bus.read address b = .error f b := by rw [Bus.read, hp]
      have hact : (read address).act b = .error f b := map_of_error _ hr
      rw [answer, hact]
      exact Records.refl b
  | write address data =>
    cases hr : Bus.write address data b with
    | ok _ t =>
      have hact : (write address data).act b = .ok .done t := map_of_ok _ hr
      rw [answer, hact]
      exact Records.write hb hr
    | error f t =>
      obtain rfl : t = b := (ends_write address data b).error hr
      have hact : (write address data).act t = .error f t := map_of_error _ hr
      rw [answer, hact]
      exact Records.refl t
  | peek address =>
    have hlooks : (peek address).Looks := trivial
    rw [logged?_of_looks hlooks, act_of_looks hlooks]
    exact Records.refl b
  | dump address length =>
    have hlooks : (dump address length).Looks := trivial
    rw [logged?_of_looks hlooks, act_of_looks hlooks]
    exact Records.refl b

end BusCall

/-- What a session adds to the record explains the bus it comes to. -/
theorem busSession_records {b : Bus} (hb : b.layout.MemoryOnly) (calls : List BusCall) :
    Records b (busAccesses calls b) (busSession calls b) := by
  induction calls generalizing b with
  | nil => exact Records.refl b
  | cons c calls ih =>
    have hfirst := c.act_records hb
    have hrest := ih (hfirst.layout ▸ hb)
    have hall := hfirst.trans hrest
    have haccesses : busAccesses (c :: calls) b =
        (c.logged? (c.answer b)).toList ++ busAccesses calls (left (c.act b)) := by
      unfold busAccesses
      rw [busAnswers, List.filterMap_cons]
      cases c.logged? (c.answer b) <;> rfl
    rw [haccesses]
    exact hall

/-- The record is made of the accesses that were answered, and played back it leads from the bytes at
first to each byte read and to what the memories hold. -/
theorem busSession_faithful {b : Bus} (hb : b.layout.MemoryOnly) (hlog : b.log = [])
    (calls : List BusCall) :
    let t := busSession calls b
    t.log = busAccesses calls b ∧
      (∀ before c after, calls = before ++ c :: after →
        (c.Looks ∨ ∃ f, c.answer (busSession before b) = .error f) →
          left (c.act (busSession before b)) = busSession before b) ∧
      (∀ (k : Nat) address data, t.log[k]? = some ⟨.read, address, data⟩ →
        ∃ first, b.peek address = .ok first ∧
          data = (b.latest? address (t.log.take k)).getD first) ∧
      (∀ before address after, calls = before ++ .peek address :: after →
        BusCall.answer (.peek address) (busSession before b) = (b.peek address).map fun first =>
          .byte ((b.latest? address (busAccesses before b)).getD first)) ∧
      (∀ (k : Nat) r, b.devices[k]? = some (.ram r) →
        t.devices[k]? = some (.ram (t.log.foldl (b.redone k) r))) ∧
      t.takeLog = (busAccesses calls b, { t with log := [] }) ∧
      ∀ later, (busSession later t.takeLog.2).takeLog.1 = busAccesses later t.takeLog.2 := by
  intro t
  have hrecords : Records b (busAccesses calls b) t := busSession_records hb calls
  have hentries : t.log = busAccesses calls b := by rw [hrecords.log, hlog, List.nil_append]
  refine ⟨hentries, ?_, ?_, ?_, ?_, ?_, ?_⟩
  · rintro before c after rfl (hlooks | ⟨f, hf⟩)
    · exact BusCall.act_of_looks hlooks
    · exact BusCall.act_of_error hf
  · rw [hentries]
    exact hrecords.reads
  · rintro before address after rfl
    rw [BusCall.answer_peek ((busSession_records hb before).peek address)]
    cases b.peek address <;> rfl
  · rw [hentries]
    exact hrecords.memory
  · rw [← hentries]
    rfl
  · intro later
    have hlayout : t.takeLog.2.layout.MemoryOnly := hrecords.layout ▸ hb
    exact (busSession_records hlayout later).log

/-- Two memories: the first has a second range, the ranges of both overlap, and addresses are left out. -/
def aliasedBus : Bus where
  devices := #[.ram ⟨#[1, 2, 3, 4], false⟩, .ram ⟨#[5, 6, 7, 8], false⟩]
  ranges := [⟨0x10, 0x13, 0⟩, ⟨0x12, 0x15, 1⟩, ⟨0x20, 0x23, 0⟩]
  log := []

/-- A write that is read at another address, beside calls that fail on the map and in a memory. -/
def aliasedCalls : List BusCall :=
  [.write 0x11 9, .read 0x21, .read 0x18, .write 0x13 256, .peek 0x14]

theorem busSession_faithful_aliased :
    aliasedBus.layout.MemoryOnly ∧ aliasedBus.log = [] ∧
      busAccesses aliasedCalls aliasedBus = [⟨.write, 0x11, 9⟩, ⟨.read, 0x21, 9⟩] ∧
      (busSession aliasedCalls aliasedBus).log = busAccesses aliasedCalls aliasedBus := by
  have hb : aliasedBus.layout.MemoryOnly := by
    intro r hr
    simp only [aliasedBus, Bus.layout, List.mem_cons, List.not_mem_nil, or_false] at hr
    rcases hr with rfl | rfl | rfl <;> exact ⟨4, by simp [aliasedBus, Bus.layout, Device.extent, Ram.size]⟩
  exact ⟨hb, rfl, by decide +kernel, (busSession_faithful hb rfl aliasedCalls).1⟩

end SpriteVM
