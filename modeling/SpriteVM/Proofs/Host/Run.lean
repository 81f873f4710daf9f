import Mathlib.Data.List.Chain
import SpriteVM.Proofs.Host.Frame
import SpriteVM.Proofs.Machine.Session

namespace SpriteVM

/-- Nothing goes on by itself: the machine stopped, or it waits and no key is held. -/
def State.AtRest (s : State) : Prop := s.terminal = true ∨ s.blocking = true ∧ ¬ s.KeyHeld

namespace Host

variable {h t : Hosted} {frame : Frame} {f : Fault} {n : Nat} {last : Option Frame}

theorem ends_iff (hr : runFrame h = .ok frame t) :
    ends frame t.machine.state = true ↔ t.machine.state.AtRest := by
  obtain ⟨ss, u, -, rfl, rfl⟩ := runFrame_eq_ok hr
  rw [ends, State.AtRest, ← State.any_keys, Bool.or_eq_true, Bool.and_eq_true, Bool.not_eq_true',
    Bool.not_eq_true]
  rfl

/-- The frames that a run has at most. -/
def allowed (limit : Option Int) (patience : Nat) : Nat :=
  match limit with
  | some n => n.toNat
  | none => patience

/-- The states in which the frames of a run begin, one after the other. -/
def begun : Nat → Hosted → List Hosted
  | 0, _ => []
  | n + 1, h =>
    if h.machine.state.terminal then []
    else h :: match runFrame h with
      | .ok frame t => if ends frame t.machine.state then [] else begun n t
      | .error _ _ => []

/-- How a run of at most `n` frames goes: the states its frames begin in, and what it comes to. -/
inductive RunOutcome : Nat → Option Frame → Hosted → List Hosted →
    EStateM.Result Fault Hosted (Option Frame × Bool) → Prop
  | spent (last : Option Frame) (h : Hosted) : RunOutcome 0 last h [] (.ok (last, false) h)
  | stopped {n : Nat} {last : Option Frame} {h : Hosted} (ht : h.machine.state.terminal = true) :
    RunOutcome (n + 1) last h [] (.ok (last, true) h)
  | broken {n : Nat} {last : Option Frame} {h t : Hosted} {f : Fault}
    (ht : h.machine.state.terminal = false) (hr : runFrame h = .error f t) :
    RunOutcome (n + 1) last h [h] (.error f t)
  | rests {n : Nat} {last : Option Frame} {h t : Hosted} {frame : Frame}
    (ht : h.machine.state.terminal = false) (hr : runFrame h = .ok frame t)
    (he : t.machine.state.AtRest) : RunOutcome (n + 1) last h [h] (.ok (some frame, true) t)
  | goes {n : Nat} {last : Option Frame} {h t : Hosted} {frame : Frame} {xs : List Hosted}
    {r : EStateM.Result Fault Hosted (Option Frame × Bool)}
    (ht : h.machine.state.terminal = false) (hr : runFrame h = .ok frame t)
    (he : ¬ t.machine.state.AtRest) (hrest : RunOutcome n (some frame) t xs r) :
    RunOutcome (n + 1) last h (h :: xs) r

theorem runFrames_succ (n : Nat) (last : Option Frame) (h : Hosted) :
    runFrames (n + 1) last h =
      if h.machine.state.terminal then .ok (last, true) h
      else match runFrame h with
        | .ok frame t =>
          if ends frame t.machine.state then .ok (some frame, true) t else runFrames n (some frame) t
        | .error f t => .error f t := by
  have hi : onMachine (Machine.inspect (·.terminal)) h = .ok h.machine.state.terminal h := rfl
  rw [runFrames, bind_of_ok hi]
  cases h.machine.state.terminal with
  | true => rfl
  | false =>
    simp only [Bool.false_eq_true, if_false]
    cases hr : runFrame h with
    | error f t => rw [bind_of_error hr]
    | ok frame t =>
      have hg : (get : EStateM Fault Hosted Hosted) t = .ok t t := rfl
      rw [bind_of_ok hr, bind_of_ok hg]
      dsimp only
      cases ends frame t.machine.state <;> rfl

theorem runFrames_outcome (n : Nat) (last : Option Frame) (h : Hosted) :
    RunOutcome n last h (begun n h) (runFrames n last h) := by
  induction n generalizing last h with
  | zero => exact .spent last h
  | succ n ih =>
    rw [runFrames_succ, begun]
    cases ht : h.machine.state.terminal with
    | true => exact .stopped ht
    | false =>
      simp only [Bool.false_eq_true, if_false]
      cases hr : runFrame h with
      | error f t => exact .broken ht hr
      | ok frame t =>
        dsimp only
        cases he : ends frame t.machine.state with
        | true => exact .rests ht hr ((ends_iff hr).1 he)
        | false =>
          have hgoes : ¬ t.machine.state.AtRest := by
            rw [← ends_iff hr, he]
            exact Bool.false_ne_true
          exact .goes ht hr hgoes (ih (some frame) t)

/-- The answer of a run whose frames came to this; it has none if it was given up. -/
def answer (limit : Option Int) (r : Option Frame × Bool) : Option (Option Frame) :=
  match limit with
  | some _ => some r.1
  | none => if r.2 then some r.1 else none

theorem run_eq (limit : Option Int) (patience : Nat) :
    run limit patience = answer limit <$> runFrames (allowed limit patience) none := by
  cases limit with
  | some n => rfl
  | none =>
    funext h
    change (runFrames patience none >>= fun r => pure (answer none r)) h = _
    rw [bind_pure_comp]
    rfl

theorem run_eq_ok {limit : Option Int} {patience : Nat} (hr : run limit patience h = .ok (some last) t) :
    ∃ ended, runFrames (allowed limit patience) none h = .ok (last, ended) t ∧
      (limit = none → ended = true) := by
  rw [run_eq] at hr
  obtain ⟨⟨last', ended⟩, hrun, ha⟩ := map_eq_ok.1 hr
  cases limit with
  | some n =>
    obtain rfl := Option.some.inj ha
    exact ⟨ended, hrun, nofun⟩
  | none =>
    cases ended with
    | true =>
      obtain rfl := Option.some.inj ha
      exact ⟨true, hrun, fun _ => rfl⟩
    | false => exact nomatch ha

theorem run_eq_error {limit : Option Int} {patience : Nat} : run limit patience h = .error f t ↔
    runFrames (allowed limit patience) none h = .error f t := by
  rw [run_eq]
  exact map_eq_error

/-- A frame that executes no instruction. -/
def Idle (x : Hosted) : Prop := ∃ frame t, runFrame x = .ok frame t ∧ frame.cycles = 0

section Frames

variable (hr : runFrame h = .ok frame t)

include hr

theorem frame_advances :
    t.host = { h.host with frames := h.host.frames + 1 } ∧
      ∃ ss, h.machine.Advances ss t.machine ∧ frame.cycles = ss.length := by
  obtain ⟨ss, u, hturn, rfl, rfl⟩ := runFrame_eq_ok hr
  exact ⟨rfl, ss, hturn.advances.closed, rfl⟩

/-- Only a machine that waits has nothing to execute. -/
theorem blocking_of_idle (hroom : 1 ≤ h.host.cyclesPerFrame) (ht : h.machine.state.terminal = false)
    (hidle : frame.cycles = 0) : h.machine.state.blocking = true := by
  obtain ⟨ss, u, hturn, rfl, rfl⟩ := runFrame_eq_ok hr
  cases hturn with
  | answered hb => exact hb
  | played hb h hle hstop =>
    have hnil : ss = [] := List.eq_nil_of_length_eq_zero hidle
    subst hnil
    obtain rfl := Machine.executes_nil.1 h
    rcases hstop hroom with hterm | hblock
    · rw [ht] at hterm
      contradiction
    · exact hblock

/-- A frame that finds the machine waiting executes nothing, and it ends the wait if it can. -/
theorem blocked_frame (hb : h.machine.state.blocking = true) :
    frame.cycles = 0 ∧ (t.machine.state.blocking = true ↔ ¬ h.machine.state.KeyHeld) ∧
      (t.machine.state.KeyHeld ↔ h.machine.state.KeyHeld) := by
  obtain ⟨ss, u, hturn, rfl, rfl⟩ := runFrame_eq_ok hr
  cases hturn with
  | answered _ hkey =>
    have hblock := Machine.resolveKey_blocking hkey
    rw [hb] at hblock
    refine ⟨rfl, hblock.trans (by simp), ?_⟩
    obtain ⟨v, b, rfl⟩ := Machine.resolveKey_rest hkey
    exact Iff.rfl
  | played hn =>
    rw [hb] at hn
    contradiction

/-- Unless all comes to rest, a frame that finds the machine waiting ends the wait. -/
theorem unblocked_of_goes (hb : h.machine.state.blocking = true) (he : ¬ t.machine.state.AtRest) :
    t.machine.state.blocking = false := by
  obtain ⟨-, hblock, hkeys⟩ := blocked_frame hr hb
  rw [← Bool.not_eq_true]
  intro hblocked
  have hheld : ¬ t.machine.state.KeyHeld := fun hk => hblock.1 hblocked (hkeys.1 hk)
  exact he (.inr ⟨hblocked, hheld⟩)

end Frames

namespace RunOutcome

variable {xs : List Hosted} {r : EStateM.Result Fault Hosted (Option Frame × Bool)}

theorem head (ho : RunOutcome n last h xs r) : ∀ x ∈ xs.head?, x = h := by
  cases ho <;> simp

theorem eq_nil_iff (ho : RunOutcome n last h xs r) :
    xs = [] ↔ n = 0 ∨ h.machine.state.terminal = true := by
  cases ho <;> simp_all

theorem frames (ho : RunOutcome n last h xs r) {a : Option Frame × Bool} (hr : r = .ok a t) :
    t.host.frames = h.host.frames + xs.length := by
  induction ho with
  | spent | stopped =>
    obtain ⟨-, rfl⟩ := EStateM.Result.ok.inj hr
    rfl
  | broken => exact nomatch hr
  | rests _ hf =>
    obtain ⟨-, rfl⟩ := EStateM.Result.ok.inj hr
    exact congrArg Host.frames (frame_advances hf).1
  | goes _ hf _ _ ih =>
    have hone := congrArg Host.frames (frame_advances hf).1
    have hrest := ih hr
    rw [List.length_cons, hrest, hone]
    exact Nat.add_right_comm _ 1 _

/-- The answer is that of the last frame. -/
theorem answers (ho : RunOutcome n last h xs r) {last' : Option Frame} {ended : Bool}
    (hr : r = .ok (last', ended) t) :
    xs = [] ∧ last' = last ∨
      ∃ x frame, xs.getLast? = some x ∧ last' = some frame ∧ runFrame x = .ok frame t := by
  induction ho with
  | spent | stopped =>
    obtain ⟨he, -⟩ := EStateM.Result.ok.inj hr
    exact .inl ⟨rfl, (congrArg Prod.fst he).symm⟩
  | broken => exact nomatch hr
  | rests _ hf =>
    obtain ⟨he, rfl⟩ := EStateM.Result.ok.inj hr
    exact .inr ⟨_, _, rfl, (congrArg Prod.fst he).symm, hf⟩
  | @goes n last h t' frame xs r _ hf _ hrest ih =>
    rcases ih hr with ⟨rfl, hlast⟩ | ⟨x, g, hx, hlast, hg⟩
    · -- no further frame: the run ended where this one did
      have hstate : t' = t := by
        subst hr
        cases hrest <;> rfl
      exact .inr ⟨h, frame, rfl, hlast, hstate ▸ hf⟩
    · refine .inr ⟨x, g, ?_, hlast, hg⟩
      rw [List.getLast?_cons, hx]
      rfl

/-- A run that has not come to its end went through all frames it had. -/
theorem rest_or_bound (ho : RunOutcome n last h xs r) {last' : Option Frame} {ended : Bool}
    (hr : r = .ok (last', ended) t) :
    t.machine.state.AtRest ∨ ended = false ∧ xs.length = n := by
  induction ho with
  | spent =>
    obtain ⟨he, -⟩ := EStateM.Result.ok.inj hr
    exact .inr ⟨(congrArg Prod.snd he).symm, rfl⟩
  | stopped ht =>
    obtain ⟨-, rfl⟩ := EStateM.Result.ok.inj hr
    exact .inl (.inl ht)
  | broken => exact nomatch hr
  | rests _ _ he =>
    obtain ⟨-, rfl⟩ := EStateM.Result.ok.inj hr
    exact .inl he
  | goes _ _ _ _ ih =>
    rcases ih hr with hrest | ⟨he, hlength⟩
    · exact .inl hrest
    · exact .inr ⟨he, congrArg (· + 1) hlength⟩

theorem returns (ho : RunOutcome n last h xs r) {a : Option Frame × Bool} (hr : r = .ok a t) :
    ∀ x ∈ xs, ∃ frame u, runFrame x = .ok frame u := by
  induction ho with
  | spent | stopped => simp
  | broken => exact nomatch hr
  | rests _ hf => simpa using ⟨_, _, hf⟩
  | goes _ hf _ _ ih => exact List.forall_mem_cons.2 ⟨⟨_, _, hf⟩, ih hr⟩

/-- A run fails only in one of its frames. -/
theorem fails (ho : RunOutcome n last h xs r) (hr : r = .error f t) :
    ∃ x ∈ xs, runFrame x = .error f t := by
  induction ho with
  | spent | stopped | rests => exact nomatch hr
  | broken _ hf =>
    obtain ⟨rfl, rfl⟩ := EStateM.Result.error.inj hr
    exact ⟨_, List.mem_singleton_self _, hf⟩
  | goes _ _ _ _ ih =>
    obtain ⟨x, hx, hf⟩ := ih hr
    exact ⟨x, List.mem_cons_of_mem _ hx, hf⟩

/-- A frame that fails is the end of the run. -/
theorem error_of_mem (ho : RunOutcome n last h xs r) {x : Hosted} (hx : x ∈ xs)
    (hr : runFrame x = .error f t) : r = .error f t := by
  induction ho with
  | spent | stopped => simp at hx
  | broken _ hf =>
    obtain rfl := List.mem_singleton.1 hx
    obtain ⟨rfl, rfl⟩ := EStateM.Result.error.inj (hf.symm.trans hr)
    rfl
  | rests _ hf =>
    obtain rfl := List.mem_singleton.1 hx
    rw [hf] at hr
    cases hr
  | goes _ hf _ _ ih =>
    rcases List.mem_cons.1 hx with rfl | hx
    · rw [hf] at hr
      cases hr
    · exact ih hx

/-- Frame follows upon frame, and of two in a row one executes an instruction. -/
theorem chain (ho : RunOutcome n last h xs r) (hroom : 1 ≤ h.host.cyclesPerFrame) :
    xs.IsChain fun x y => (∃ frame, runFrame x = .ok frame y) ∧ ¬ (Idle x ∧ Idle y) := by
  induction ho with
  | spent | stopped => exact .nil
  | broken | rests => exact .singleton _
  | @goes n last h t frame xs r ht hf he hrest ih =>
    have hhost := (frame_advances hf).1
    have hroom' : 1 ≤ t.host.cyclesPerFrame := by
      rw [hhost]
      exact hroom
    refine List.isChain_cons.2 ⟨fun x hx => ?_, ih hroom'⟩
    obtain rfl := hrest.head x hx
    refine ⟨⟨frame, hf⟩, ?_⟩
    rintro ⟨⟨f₁, t₁, h₁, hz₁⟩, ⟨f₂, t₂, h₂, hz₂⟩⟩
    have hb := blocking_of_idle h₁ hroom ht hz₁
    have hgoes := unblocked_of_goes hf hb he
    have hterm : x.machine.state.terminal = false := by
      rw [← Bool.not_eq_true]
      exact fun hterm => he (.inl hterm)
    rw [blocking_of_idle h₂ hroom' hterm hz₂] at hgoes
    contradiction

/-- The instructions of a run are at least half as many as its frames; an odd one out is there only
if the run begins with a wait. -/
theorem progress (ho : RunOutcome n last h xs r) (hroom : 1 ≤ h.host.cyclesPerFrame)
    {a : Option Frame × Bool} (hr : r = .ok a t) :
    ∃ ss, h.machine.Advances ss t.machine ∧
      xs.length ≤ 2 * ss.length + if h.machine.state.blocking then 1 else 0 := by
  have hframe {h t : Hosted} {frame : Frame} (hroom : 1 ≤ h.host.cyclesPerFrame)
      (ht : h.machine.state.terminal = false) (hf : runFrame h = .ok frame t) :
      ∃ ss, h.machine.Advances ss t.machine ∧ (h.machine.state.blocking = false → 1 ≤ ss.length) := by
    obtain ⟨-, ss, hss, hcycles⟩ := frame_advances hf
    refine ⟨ss, hss, fun hb => ?_⟩
    rw [← hcycles, Nat.one_le_iff_ne_zero]
    intro hz
    rw [blocking_of_idle hf hroom ht hz] at hb
    contradiction
  induction ho with
  | spent | stopped =>
    obtain ⟨-, rfl⟩ := EStateM.Result.ok.inj hr
    exact ⟨[], Machine.Advances.refl _, by simp⟩
  | broken => exact nomatch hr
  | @rests _ _ h _ _ ht hf =>
    obtain ⟨-, rfl⟩ := EStateM.Result.ok.inj hr
    obtain ⟨ss, hss, hone⟩ := hframe hroom ht hf
    refine ⟨ss, hss, ?_⟩
    cases hb : h.machine.state.blocking with
    | true => simp
    | false =>
      have hone := hone hb
      simp only [List.length_singleton]
      omega
  | @goes n last h t' frame xs r ht hf he hrest ih =>
    have hhost := (frame_advances hf).1
    obtain ⟨ss, hss, hone⟩ := hframe hroom ht hf
    obtain ⟨ss', hss', hle⟩ := ih (hhost ▸ hroom) hr
    refine ⟨ss ++ ss', hss.trans hss', ?_⟩
    rw [List.length_cons, List.length_append]
    cases hb : h.machine.state.blocking with
    | true =>
      rw [unblocked_of_goes hf hb he] at hle
      simp only [Bool.false_eq_true, if_false, if_true] at hle ⊢
      omega
    | false =>
      have hone := hone hb
      split at hle <;> omega

end RunOutcome

/-- A run that returns has come to rest, or it went through as many frames as it was given. -/
theorem rest_or_limit {limit : Option Int} {patience : Nat}
    (hr : run limit patience h = .ok (some last) t) :
    t.machine.state.AtRest ∨
      ∃ n, limit = some n ∧ (begun (allowed limit patience) h).length = n.toNat := by
  obtain ⟨ended, hrun, hended⟩ := run_eq_ok hr
  rcases (runFrames_outcome _ none h).rest_or_bound hrun with hrest | ⟨hopen, hlength⟩
  · exact .inl hrest
  · cases limit with
    | none =>
      rw [hended rfl] at hopen
      contradiction
    | some n => exact .inr ⟨n, rfl, hlength⟩

/-- A run that returns went through the frames in `xs` to rest or to its bound, and of two frames in a
row one executed an instruction. -/
theorem run_returned {limit : Option Int} {patience : Nat} (hroom : 1 ≤ h.host.cyclesPerFrame)
    (hr : run limit patience h = .ok (some last) t) :
    let xs := begun (allowed limit patience) h
    t.host.frames = h.host.frames + xs.length ∧
      (last = none ↔ xs.length = 0) ∧
      (last = none ↔ (∃ n, limit = some n ∧ n ≤ 0) ∨ h.machine.state.terminal = true) ∧
      (∀ frame, last = some frame → ∃ x, xs.getLast? = some x ∧ runFrame x = .ok frame t) ∧
      (t.machine.state.terminal = true ∨
        t.machine.state.blocking = true ∧ ¬ t.machine.state.KeyHeld ∨
        ∃ n, limit = some n ∧ (xs.length : Int) = max n 0) ∧
      xs.IsChain (fun x y => (∃ frame, runFrame x = .ok frame y) ∧ ¬ (Idle x ∧ Idle y)) ∧
      (∃ ss, h.machine.Advances ss t.machine ∧ xs.length / 2 ≤ ss.length) ∧
      h.machine.cycles + xs.length / 2 ≤ t.machine.cycles ∧
      ∀ x ∈ xs, x.machine.state.blocking = true → x.machine.state.KeyHeld →
        ∃ frame u, runFrame x = .ok frame u ∧ u.machine.state.blocking = false := by
  obtain ⟨ended, hrun, hended⟩ := run_eq_ok hr
  have ho := runFrames_outcome (allowed limit patience) none h
  have hlast := ho.answers hrun
  have hnone : last = none ↔ begun (allowed limit patience) h = [] := by
    rcases hlast with ⟨hnil, rfl⟩ | ⟨x, frame, hx, rfl, -⟩
    · simp [hnil]
    · have hne : begun (allowed limit patience) h ≠ [] := by
        intro hnil
        rw [hnil] at hx
        contradiction
      simp [hne]
  obtain ⟨ss, hss, hle⟩ := ho.progress hroom hrun
  have hhalf : (begun (allowed limit patience) h).length / 2 ≤ ss.length := by
    split at hle <;> omega
  refine ⟨ho.frames hrun, hnone.trans List.length_eq_zero_iff.symm, ?_, ?_, ?_, ho.chain hroom,
    ⟨ss, hss, hhalf⟩, ?_, ?_⟩
  · rw [hnone, ho.eq_nil_iff]
    cases limit with
    | some n => simp [allowed]
    | none =>
      -- a run without a bound ends only where all is at rest, so that it had a frame to give up
      have hpatience : allowed none patience = 0 → h.machine.state.terminal = true := by
        intro hz
        rw [hended rfl, hz] at hrun
        exact nomatch hrun
      constructor
      · rintro (hz | ht)
        · exact .inr (hpatience hz)
        · exact .inr ht
      · rintro (⟨n, hn, -⟩ | ht)
        · exact nomatch hn
        · exact .inr ht
  · rintro frame rfl
    rcases hlast with ⟨-, hnil⟩ | ⟨x, g, hx, hg, hframe⟩
    · exact nomatch hnil
    · obtain rfl := Option.some.inj hg
      exact ⟨x, hx, hframe⟩
  · rcases rest_or_limit hr with (ht | hwait) | ⟨n, rfl, hlength⟩
    · exact .inl ht
    · exact .inr (.inl hwait)
    · refine .inr (.inr ⟨n, rfl, ?_⟩)
      rw [hlength]
      exact Int.toNat_eq_max n
  · rw [hss.cycles]
    exact Nat.add_le_add_left hhalf _
  · intro x hx hb hkey
    obtain ⟨frame, u, hf⟩ := ho.returns hrun x hx
    refine ⟨frame, u, hf, ?_⟩
    rw [← Bool.not_eq_true]
    exact fun hblocked => (blocked_frame hf hb).2.1.1 hblocked hkey

/-- A host with room for one instruction in a frame: the first waits for a key, which is held, and
the second stops the machine. -/
def waitingHost (m₀ : Machine) : Hosted :=
  ⟨session [.load [0xF0, 0x0A, 0xFF, 0xFF], .setKey 3 true] m₀, ⟨1, 0⟩⟩

theorem run_returned_waitingHost : ∃ m₀, Machine.create Bus.blank 7 = .ok m₀ ∧
    1 ≤ (waitingHost m₀).host.cyclesPerFrame ∧
    ∃ frame t, run (some 5) 0 (waitingHost m₀) = .ok (some (some frame)) t ∧
      (begun 5 (waitingHost m₀)).length = 3 ∧ t.host.frames = 0 + 3 ∧
      (waitingHost m₀).machine.cycles + 1 ≤ t.machine.cycles := by
  obtain ⟨m₀, h₀, hrun⟩ := Machine.exists_created Bus.blank 7 (fun m₀ =>
    (begun 5 (waitingHost m₀)).length = 3 && match run (some 5) 0 (waitingHost m₀) with
      | .ok a _ => a.any (·.isSome)
      | .error _ _ => false) (by decide +kernel)
  rw [Bool.and_eq_true, decide_eq_true_eq] at hrun
  obtain ⟨hlength, hrun⟩ := hrun
  cases hr : run (some 5) 0 (waitingHost m₀) with
  | error f t => simp [hr] at hrun
  | ok a t =>
    simp only [hr, Option.any_eq_true, Option.isSome_iff_exists] at hrun
    obtain ⟨_, rfl, frame, rfl⟩ := hrun
    have hroom : 1 ≤ (waitingHost m₀).host.cyclesPerFrame := Nat.le_refl 1
    obtain ⟨hframes, -, -, -, -, -, -, hcycles, -⟩ := run_returned hroom hr
    have hall : allowed (some 5) 0 = 5 := rfl
    rw [hall, hlength] at hframes hcycles
    exact ⟨m₀, h₀, hroom, frame, t, hr, hlength, hframes, hcycles⟩

end Host

end SpriteVM
