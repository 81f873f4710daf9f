import SpriteVM.Proofs.Command.Arguments
import SpriteVM.Proofs.Setup

namespace SpriteVM

namespace Command

variable {a : Arguments} {s : Settings} {fs : Files}

theorem mem_override_keys (ha : a.Valid) (hs : s.Valid) {k : Int} :
    k ∈ (override a s).keys ↔ k ∈ s.keys ∨ k ∈ a.keys := by
  unfold override
  dsimp only
  cases hkeys : a.keys with
  | nil => simp
  | cons first rest =>
    rw [← hkeys, if_neg (by simp [hkeys]), List.mem_filter]
    have hrange (hk : IsKey k) : k ∈ (List.range 16).map Int.ofNat := by
      obtain ⟨hlo, hhi⟩ := hk
      refine List.mem_map.2 ⟨k.toNat, List.mem_range.2 (by omega), ?_⟩
      exact Int.toNat_of_nonneg hlo
    simp only [Bool.or_eq_true, List.contains_iff_mem]
    constructor
    · rintro ⟨-, hk⟩
      exact hk.symm
    · rintro (hk | hk)
      · exact ⟨hrange (hs.keys k hk), .inr hk⟩
      · exact ⟨hrange (ha.keys k hk), .inl hk⟩

/-- The settings, with what the arguments say instead, can be run. -/
structure Runnable (fs : Files) (a : Arguments) (s : Settings) : Prop where
  host : Host.ofCycles (override a s).cyclesPerFrame =
    .ok ⟨(override a s).cyclesPerFrame.toNat, 0⟩ ∧ 1 ≤ (override a s).cyclesPerFrame.toNat
  /-- Frames are turned into seconds by this. -/
  rate : (override a s).frameRate.toNat ≠ 0
  /-- Keys are never the reason why there is no machine. -/
  refused : ∀ given entropy f, Setup.build (override a s) given fs entropy = .error f →
    f.kind.isA .invalidKey = false
  machine : ∀ given entropy,
    (∀ path, Setup.programPath given (override a s) = some path →
      ∀ f, ¬ Setup.Unloadable fs path f) →
    ∃ setup, Setup.build (override a s) given fs entropy = .ok setup
  keys : ∀ given entropy setup, Setup.build (override a s) given fs entropy = .ok setup →
    ∀ k : Fin 16, setup.machine.state.keys.get k = true ↔
      (k.val : Int) ∈ s.keys ∨ (k.val : Int) ∈ a.keys

theorem runnable (fs : Files) (ha : a.Valid) (hs : s.Valid) : Runnable fs a s := by
  have hv := override_valid ha hs
  constructor
  case host =>
    have hcycles := hv.cyclesPerFrame
    refine ⟨if_pos hcycles, ?_⟩
    omega
  case rate =>
    have hrate := hv.frameRate
    omega
  case refused =>
    intro given entropy f hb
    obtain ⟨path, g, -, hload, hg⟩ | ⟨setup, hok⟩ := Setup.build_cases hv given fs entropy
    · obtain rfl := Except.error.inj (hb.symm.trans hg)
      exact hload.not_key
    · rw [hok] at hb
      cases hb
  case machine =>
    intro given entropy hloads
    obtain ⟨path, g, hp, hload, -⟩ | hok := Setup.build_cases hv given fs entropy
    · exact absurd hload (hloads path hp g)
    · exact hok
  case keys =>
    intro given entropy setup hb k
    rw [Setup.build_keys hb k, mem_override_keys ha hs]

/-- Settings that are accepted have room for an instruction in a frame, a frame in a second and only
keys that there are; so they can be run with whatever arguments are accepted, on whatever files. -/
theorem accepted_runnable {v : Value} (hv : Settings.ofValue v = .ok s) :
    (1 ≤ s.cyclesPerFrame ∧ 1 ≤ s.frameRate ∧ ∀ k ∈ s.keys, 0 ≤ k ∧ k ≤ 15) ∧
      ∀ parse : ArgumentParser, parse.Ranged →
        ∀ fs args a, parse fs args = .ok (.run a) → Runnable fs a s := by
  have hs := Settings.ofValue_valid hv
  refine ⟨⟨hs.cyclesPerFrame, hs.frameRate, fun k hk => ?_⟩, fun parse hparse fs args a hp => ?_⟩
  · obtain ⟨hlo, hhi⟩ := hs.keys k hk
    exact ⟨hlo, Int.lt_add_one_iff.1 hhi⟩
  · exact runnable fs (hparse fs args a hp) hs

/-- Settings that hold a key twice and another by a text, and a host with little to do. -/
def keypadValue : Value :=
  .map [(.text "keys", .list [.int 3, .text "0xA", .int 3]),
    (.text "host", .map [(.text "cycles_per_frame", .text "7")])]

def keypadSettings : Settings := ⟨none, none, 7, 60, none, false, [3, 10, 3]⟩

/-- A program that stops at once. -/
def keypadFiles : Files := (FileTree.ofList [("a.ch8", [0xFF, 0xFF])]).files

def keypadArguments : Arguments := ⟨some "a.ch8", none, none, none, none, [15, 10], false, false, 0⟩

theorem accepted_runnable_keypad : Settings.ofValue keypadValue = .ok keypadSettings ∧
    Request.parse keypadFiles ["run", "a.ch8", "-k15", "--key", "10"] =
      .ok (.run keypadArguments) ∧
    ∃ setup, Setup.build (override keypadArguments keypadSettings) (some "a.ch8") keypadFiles 0 =
        .ok setup ∧
      ∀ k : Fin 16, setup.machine.state.keys.get k = true ↔ k = 3 ∨ k = 10 ∨ k = 15 := by
  have hv : Settings.ofValue keypadValue = .ok keypadSettings := by decide +kernel
  have hp : Request.parse keypadFiles ["run", "a.ch8", "-k15", "--key", "10"] =
      .ok (.run keypadArguments) := by decide +kernel
  have hruns := (accepted_runnable hv).2 Request.parse Request.parse_ranged _ _ _ hp
  have hread : keypadFiles.read "a.ch8" = .ok [0xFF, 0xFF] := by decide +kernel
  have hloads (path : String)
      (hpath : Setup.programPath (some "a.ch8") (override keypadArguments keypadSettings) = some path) :
      ∀ f, ¬ Setup.Unloadable keypadFiles path f := by
    rw [Setup.programPath_given (by decide)] at hpath
    obtain rfl := Option.some.inj hpath
    intro f hf
    cases hf with
    | unreadable hr =>
      rw [hread] at hr
      cases hr
    | refused hr hf =>
      obtain rfl := Except.ok.inj (hread.symm.trans hr)
      cases hf with
      | oversized hl => exact absurd hl (by decide)
      | emptyPicture _ hh => cases hh
  obtain ⟨setup, hb⟩ := hruns.machine (some "a.ch8") 0 hloads
  refine ⟨hv, hp, setup, hb, fun k => ?_⟩
  rw [hruns.keys _ _ _ hb]
  revert k
  decide

end Command

end SpriteVM
