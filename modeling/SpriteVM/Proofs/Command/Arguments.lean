import SpriteVM.Command.Run
import SpriteVM.Proofs.Config.Accepted

namespace SpriteVM.Command

/-- Arguments as they are accepted. -/
structure Arguments.Valid (a : Arguments) : Prop where
  maxFrames : ∀ n, a.maxFrames = some n → 1 ≤ n
  cyclesPerFrame : ∀ n, a.cyclesPerFrame = some n → 1 ≤ n
  keys : ∀ k ∈ a.keys, IsKey k

/-- Options that take a number take those of their range only. -/
def ArgumentParser.Ranged (parse : ArgumentParser) : Prop :=
  ∀ fs args a, parse fs args = .ok (.run a) → a.Valid

namespace Arguments

variable {fs : Files} {split : Split} {a : Arguments}

theorem admits_of_accepted {admits : Int → Bool} {text : String} {n : Int}
    (h : number admits text = .ok n) : admits n = true := by
  unfold number at h
  split at h
  · split at h
    · next hadmits =>
      obtain rfl := Except.ok.inj h
      exact hadmits
    · cases h
  · cases h

theorem of_last {α : Type} {P : α → Prop} {o : OptionName} {read : String → Except ArgumentFault α}
    (hread : ∀ text x, read text = .ok x → P x) {x : α} (h : last split o read = .ok (some x)) :
    P x := by
  unfold last at h
  split at h
  · cases h
  · next text _ =>
    obtain ⟨y, hy, he⟩ := except_map_eq_ok.1 h
    obtain rfl := Option.some.inj he
    exact hread text y hy

theorem positive_of_last {o : OptionName} {n : Int}
    (h : last split o (number isPositive) = .ok (some n)) : 1 ≤ n := by
  refine of_last (P := fun n => 1 ≤ n) (fun text n hn => ?_) h
  have hpositive := admits_of_accepted hn
  unfold isPositive at hpositive
  exact of_decide_eq_true hpositive

theorem isKey_of_number {text : String} {k : Int} (h : number isKey text = .ok k) : IsKey k := by
  have hkey := admits_of_accepted h
  simp only [isKey, Bool.and_eq_true, decide_eq_true_eq] at hkey
  unfold IsKey
  omega

theorem ofSplit_valid (h : ofSplit fs split = .ok a) : a.Valid := by
  unfold ofSplit at h
  obtain ⟨program, -, h⟩ := except_bind_eq_ok.1 h
  obtain ⟨config, -, h⟩ := except_bind_eq_ok.1 h
  obtain ⟨seed, -, h⟩ := except_bind_eq_ok.1 h
  obtain ⟨maxFrames, hframes, h⟩ := except_bind_eq_ok.1 h
  obtain ⟨cycles, hcycles, h⟩ := except_bind_eq_ok.1 h
  obtain ⟨keys, hkeys, h⟩ := except_bind_eq_ok.1 h
  obtain rfl := Except.ok.inj h
  refine ⟨fun n hn => ?_, fun n hn => ?_, ?_⟩
  · subst hn
    exact positive_of_last hframes
  · subst hn
    exact positive_of_last hcycles
  · exact forall_mem_of_mapM (fun _ _ => isKey_of_number) hkeys

end Arguments

namespace Request

variable {fs : Files} {a : Arguments}

theorem ofSplit_valid {split : Split} (h : ofSplit fs split = .ok (.run a)) : a.Valid := by
  unfold ofSplit at h
  split at h
  · cases h
  · obtain ⟨a', ha, he⟩ := except_map_eq_ok.1 h
    obtain rfl := run.inj he
    exact Arguments.ofSplit_valid ha

theorem parse_ranged : ArgumentParser.Ranged parse := by
  intro fs args a h
  unfold parse at h
  split at h
  · cases h
  · split at h
    · split at h
      · obtain ⟨split, -, h⟩ := except_bind_eq_ok.1 h
        exact ofSplit_valid h
      · cases h
    · split at h
      · obtain ⟨split, -, h⟩ := except_bind_eq_ok.1 h
        exact ofSplit_valid h
      · split at h
        · cases h
        · split at h <;> cases h

end Request

variable {a : Arguments} {s : Settings}

theorem override_valid (ha : a.Valid) (hs : s.Valid) : (override a s).Valid := by
  refine ⟨?_, hs.frameRate, fun k hk => ?_⟩
  · cases hc : a.cyclesPerFrame with
    | none => simpa [override, hc] using hs.cyclesPerFrame
    | some n => simpa [override, hc] using ha.cyclesPerFrame n hc
  · unfold override at hk
    dsimp only at hk
    split at hk
    · exact hs.keys k hk
    · obtain ⟨hrange, -⟩ := List.mem_filter.1 hk
      obtain ⟨n, hn, rfl⟩ := List.mem_map.1 hrange
      have hlt := List.mem_range.1 hn
      exact ⟨Int.natCast_nonneg n, Int.ofNat_lt.2 hlt⟩

end SpriteVM.Command
