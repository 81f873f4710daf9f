import SpriteVM.Proofs.Debugger.Drives
import SpriteVM.Proofs.Machine.Effects
import SpriteVM.Proofs.Machine.Stopped

namespace SpriteVM

namespace Twister

/-- The source after so many bytes were drawn from it. -/
def after (t : Twister) : Nat → Twister
  | 0 => t
  | k + 1 => (t.after k).nextByte.2

/-- The random bytes in their order, counted from zero. -/
def byte (t : Twister) (k : Nat) : Nat := (t.after k).nextByte.1

theorem after_add (t : Twister) (j k : Nat) : t.after (j + k) = (t.after j).after k := by
  induction k with
  | zero => rfl
  | succ k ih =>
    rw [Nat.add_succ, after, after, ih]

theorem byte_after (t : Twister) (j k : Nat) : (t.after j).byte k = t.byte (j + k) := by
  rw [byte, byte, after_add]

end Twister

namespace Machine

variable {m t x : Machine} {xs ys zs : List Machine}

/-- The random bytes drawn in these cycles: one for each instruction of the kind that draws. -/
def draws (xs : List Machine) : Nat := xs.countP fun x => x.cycled.any (·.kind = .random)

theorem draws_append (xs ys : List Machine) : draws (xs ++ ys) = draws xs + draws ys :=
  List.countP_append

theorem execute_random_eq {d : Instruction} (hk : d.kind = .random) (c : Core) :
    Core.execute d c =
      .ok () ⟨{ Core.drawRandom d.x d.byte c.state with pc := c.state.pc + 2 }, c.bus⟩ := by
  rw [Core.execute, hk]
  rfl

/-- A cycle draws a byte if it executes an instruction that does, and else none. -/
theorem cycle_random (x : Machine) :
    (left x.step).state.random = x.state.random.after (draws [x]) := by
  have hother {d : Instruction} {b : Bus} (hk : d.kind ≠ .random) :
      (left (Core.execute d ⟨x.state, b⟩)).state.random = x.state.random :=
    Core.execute_others d ⟨x.state, b⟩ .random (decide_eq_false hk)
  cases x.cycle_end with
  | unchanged hd ht =>
    rw [ht, draws, List.countP_singleton, hd]
    rfl
  | @failed d b f c he hd ht =>
    have hk : d.kind ≠ .random := by
      intro hk
      rw [execute_random_eq hk] at he
      exact nomatch he
    have hsame := hother (b := b) hk
    rw [he] at hsame
    rw [ht, draws, List.countP_singleton, hd]
    exact hsame
  | @executed d b c he hd ht =>
    rw [ht, draws, List.countP_singleton, hd]
    by_cases hk : d.kind = .random
    · have hdraw := Core.execute_random hk ⟨x.state, b⟩
      rw [he] at hdraw
      simpa [left, hk, Twister.after] using hdraw
    · have hsame := hother (b := b) hk
      rw [he] at hsame
      simpa [left, hk, Twister.after] using hsame

/-- The register of an instruction that draws gets the next byte, cut down by its mask. -/
theorem cycle_register {d : Instruction} (hd : x.cycled = some d) (hk : d.kind = .random) :
    (left x.step).state.reg d.x = Bits.and (x.state.random.byte 0) d.byte := by
  cases x.cycle_end with
  | unchanged hn | failed _ hn =>
    rw [hn] at hd
    exact nomatch hd
  | executed he hd' ht =>
    obtain rfl := Option.some.inj (hd'.symm.trans hd)
    rw [execute_random_eq hk] at he
    obtain ⟨-, rfl⟩ := EStateM.Result.ok.inj he
    rw [ht]
    exact State.reg_setReg _ _ _

namespace Through

theorem random (h : Through m xs t) : t.state.random = m.state.random.after (draws xs) := by
  induction h with
  | idle h => exact h.random
  | cycle m => exact cycle_random m
  | trans _ _ ih ih' => rw [ih', ih, draws_append, Twister.after_add]

/-- The cycles before one of them lead to it. -/
theorem before (h : Through m xs t) (hxs : xs = ys ++ x :: zs) : Through m ys x := by
  induction h generalizing ys zs with
  | idle => simp at hxs
  | cycle m =>
    obtain ⟨rfl, hx, rfl⟩ : ys = [] ∧ m = x ∧ zs = [] := by
      cases ys <;> simp_all
    subst hx
    exact refl m
  | @trans m t u xs xs' h h' ih ih' =>
    obtain ⟨ys', rfl, hrest⟩ | ⟨zs', rfl, hrest⟩ := List.append_eq_append_iff.1 hxs
    · exact h.trans (ih' hrest)
    · cases zs' with
      | nil =>
        have hnext : Through t [] x := ih' hrest.symm
        have hboth := h.trans hnext
        rwa [List.append_nil, List.append_nil] at hboth
      | cons y zs' =>
        obtain ⟨rfl, -⟩ := List.cons.inj hrest
        exact ih rfl

/-- The instructions that draw get the bytes in their order. -/
theorem stores (h : Through m xs t) {d : Instruction} (hxs : xs = ys ++ x :: zs)
    (hd : x.cycled = some d) (hk : d.kind = .random) :
    x.state.random = m.state.random.after (draws ys) ∧
      (left x.step).state.reg d.x = Bits.and (m.state.random.byte (draws ys)) d.byte ∧
      (left x.step).state.random = m.state.random.after (draws ys + 1) := by
  have hx := (h.before hxs).random
  have hone : draws [x] = 1 := by simp [draws, hd, hk]
  refine ⟨hx, ?_, ?_⟩
  · rw [cycle_register hd hk, hx, Twister.byte_after, Nat.add_zero]
  · rw [cycle_random, hx, hone, Twister.after_add]

end Through

theorem create_random {b : Bus} {seed : Int} (h : create b seed = .ok m) :
    m.seed = seed ∧ m.state.random = Twister.ofSeed seed := by
  obtain ⟨u, -, rfl⟩ := create_eq_ok.1 h
  exact ⟨rfl, rfl⟩

end Machine

open Machine (draws)

/-- A machine whose random bytes begin: it was made, or has been reset. -/
theorem driven_begins {b : Bus} {seed : Int} {m₀ : Machine} (h₀ : Machine.create b seed = .ok m₀)
    {earlier : List Drive}
    (hstart : earlier = [] ∨ ∃ before d, earlier = before ++ [d] ∧ d.Resets) :
    (driven earlier m₀).state.random = Twister.ofSeed seed := by
  obtain ⟨hseed, hrandom⟩ := Machine.create_random h₀
  obtain rfl | ⟨before, d, rfl, hd⟩ := hstart
  · exact hrandom
  · have hlast : driven (before ++ [d]) m₀ = d.act (driven before m₀) := List.foldl_append
    rw [hlast, Drive.act_of_resets hd, Machine.left_reset_state, driven_seed, hseed]
    rfl

/-- Since the start or the last reset each random byte was drawn by an instruction, each by the next
one, and by nothing else. -/
theorem driven_random {b : Bus} {seed : Int} {m₀ : Machine} (h₀ : Machine.create b seed = .ok m₀)
    {earlier run : List Drive}
    (hstart : earlier = [] ∨ ∃ before d, earlier = before ++ [d] ∧ d.Resets)
    (hrun : ∀ d ∈ run, ¬ d.Resets) :
    let m := driven earlier m₀
    let bytes := Twister.ofSeed seed
    (m.since (driven run m)).filterMap (·.executed) = (drivenStarts run m).filterMap (·.cycled) ∧
      (driven run m).state.random = bytes.after (draws (drivenStarts run m)) ∧
      ∀ ys x zs d, drivenStarts run m = ys ++ x :: zs → x.cycled = some d → d.kind = .random →
        x.state.random = bytes.after (draws ys) ∧
          (left x.step).state.reg d.x = Bits.and (bytes.byte (draws ys)) d.byte ∧
          (left x.step).state.random = bytes.after (draws ys + 1) := by
  intro m bytes
  have hbegin : m.state.random = bytes := driven_begins h₀ hstart
  have hthrough := driven_through hrun m
  obtain ⟨ss, hss, he⟩ := hthrough.advances
  rw [← hbegin, hss.since_eq]
  exact ⟨he, hthrough.random, fun ys x zs d hxs hd hk => hthrough.stores hxs hd hk⟩

/-- A program that draws two bytes and begins again. -/
def drawingImage : List UInt8 := [0xC0, 0xFF, 0xC1, 0x0F, 0x12, 0x00]

/-- A byte is drawn, and all begins anew. -/
def beforeReset : List Drive :=
  [.debug .fresh (.host (.load drawingImage)), .debug .fresh .step, .debug .fresh (.host .reset)]

/-- A debugger steps the program, a picture is refused, and a host runs it on for two frames. -/
def afterReset : List Drive :=
  [.debug .fresh (.host (.load drawingImage)), .debug .fresh (.run (some 1) 0),
    .debug .fresh (.host (.resize 0 1)), .frames ⟨2, 0⟩ (.run (some 2) 0)]

theorem driven_random_afterReset : ∃ m₀, Machine.create Bus.blank 7 = .ok m₀ ∧
    draws (drivenStarts afterReset (driven beforeReset m₀)) = 4 ∧
    (driven afterReset (driven beforeReset m₀)).state.random = (Twister.ofSeed 7).after 4 := by
  obtain ⟨m₀, h₀, hdraws⟩ := Machine.exists_created Bus.blank 7
    (fun m₀ => draws (drivenStarts afterReset (driven beforeReset m₀)) = 4) (by decide +kernel)
  have hdraws : draws (drivenStarts afterReset (driven beforeReset m₀)) = 4 := of_decide_eq_true hdraws
  have hstart : ∃ before d, beforeReset = before ++ [d] ∧ d.Resets :=
    ⟨beforeReset.take 2, .debug .fresh (.host .reset), rfl, .fresh, rfl⟩
  have hrun : ∀ d ∈ afterReset, ¬ d.Resets := by
    rintro d hd ⟨debugger, rfl⟩
    simp [afterReset] at hd
  have hrandom := (driven_random h₀ (.inr hstart) hrun).2.1
  rw [hdraws] at hrandom
  exact ⟨m₀, h₀, hdraws, hrandom⟩

end SpriteVM
